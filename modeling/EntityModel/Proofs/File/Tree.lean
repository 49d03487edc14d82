import EntityModel.File.Tree
import Mathlib.Data.List.Infix

/-!
# Places in trees of files

Where names lead is a matter of the names alone (`Path.place`, `Path.way`); the tree decides whether
they can be followed (`walk_eq_ok_iff`). Making directories changes a tree only where nothing stands
on the way (`growsAt_makeDirectories`), and succeeds exactly if no file stands there
(`makeDirectories_eq_ok_iff`).
-/

namespace EntityModel

namespace Path

/-- The place that a name leads to from another one. -/
def enter (place : List String) (name : String) : List String :=
  if name = "" || name = "." then place
  else if name = ".." then place.dropLast
  else place ++ [name]

/-- The place that a path leads to. -/
def place (path : Path) : List String := path.names.foldl enter []

/-- The places that a path leads through, from the working directory on. The last is its own. -/
def way (path : Path) : List (List String) := path.names.scanl enter []

/-- Whether a name is that of something in a directory, and not the directory itself or the one
that it is in. -/
def IsProper (name : String) : Prop := name ≠ "" ∧ name ≠ "." ∧ name ≠ ".."

instance (name : String) : Decidable (IsProper name) := inferInstanceAs (Decidable (_ ∧ _ ∧ _))

theorem enter_of_isProper {name : String} (hname : IsProper name) (place : List String) :
    enter place name = place ++ [name] := by
  simp [enter, hname.1, hname.2.1, hname.2.2]

theorem enter_prefix_of_not_isProper {name : String} (hname : ¬ IsProper name)
    (place : List String) : enter place name <+: place := by
  unfold enter
  split
  next => exact List.prefix_rfl
  next hstays =>
    split
    next => exact List.dropLast_prefix place
    next hup => exact absurd (by simpa [IsProper, and_assoc] using And.intro hstays hup) hname

@[simp] theorem names_child (path : Path) (name : String) :
    (path.child name).names = path.names ++ [name] := by
  simp [names, child]

@[simp] theorem place_child (path : Path) (name : String) :
    (path.child name).place = enter path.place name := by
  simp [place]

end Path

namespace FileTree

open EntityModel.Path (enter)

variable {tree after last : FileTree} {place other : List String} {name : String}
  {names : List String}

/-! ## What stands at a place -/

theorem lookup_putEntry (place : List String) (node : Node) (entries : List (List String × Node))
    (other : List String) : (putEntry place node entries).lookup other =
      if other = place then some node else entries.lookup other := by
  induction entries with
  | nil =>
      by_cases hother : other = place
      · simp [putEntry, hother]
      · simp [putEntry, List.lookup_cons, hother, beq_eq_false_iff_ne.mpr hother]
  | cons entry entries ih =>
      obtain ⟨first, old⟩ := entry
      unfold putEntry
      by_cases hfirst : first = place
      · subst hfirst
        by_cases hother : other = first <;>
          simp [List.lookup_cons, hother, beq_eq_false_iff_ne.mpr]
      · rw [if_neg hfirst, List.lookup_cons, List.lookup_cons, ih]
        by_cases hother : other = first
        · simp [hother, hfirst]
        · simp [beq_eq_false_iff_ne.mpr hother]

@[simp] theorem node?_nil (tree : FileTree) : tree.node? [] = some .directory := rfl

theorem node?_put (hplace : place ≠ []) (node : Node) (other : List String) :
    (tree.put place node).node? other = if other = place then some node else tree.node? other := by
  cases other with
  | nil => simp [hplace.symm]
  | cons first rest => simp [node?, put, lookup_putEntry]

theorem ne_nil_of_node? (hnode : tree.node? place ≠ some .directory) : place ≠ [] := by
  rintro rfl
  exact hnode rfl

/-- Whether a text is that of a name: it has no null character and takes at most 255 bytes. -/
def IsFileName (name : String) : Prop := '\x00' ∉ name.toList ∧ name.utf8ByteSize ≤ 255

instance (name : String) : Decidable (IsFileName name) := inferInstanceAs (Decidable (_ ∧ _))

theorem checkName_eq_ok_iff : checkName name = .ok () ↔ IsFileName name := by
  unfold checkName IsFileName
  by_cases hnull : '\x00' ∈ name.toList
  · simp [hnull]
  · by_cases hlong : 255 < name.utf8ByteSize
    · simp [hnull, hlong]
    · simp [hnull, hlong, Nat.not_lt.mp hlong]

theorem checkDirectory_eq_ok_iff :
    tree.checkDirectory place = .ok () ↔ tree.node? place = some .directory := by
  unfold checkDirectory
  rcases tree.node? place with _ | _ | content <;> simp

/-! ## Following names -/

theorem walk_cons (tree : FileTree) (place : List String) (name : String) (names : List String) :
    tree.walk place (name :: names) = (do
      checkName name
      tree.checkDirectory place
      tree.walk (enter place name) names) := by
  rw [walk, enter]
  split
  · rfl
  · split <;> rfl

/-- Names lead on if each can be one and each place that they lead on from is a directory. -/
theorem walk_eq_ok_iff : tree.walk place names = .ok other ↔
    (∀ name ∈ names, IsFileName name) ∧
    (∀ passed ∈ (names.scanl enter place).dropLast, tree.node? passed = some .directory) ∧
    other = names.foldl enter place := by
  induction names generalizing place with
  | nil => simp [walk, eq_comm]
  | cons name names ih =>
      have hsome : names.scanl enter (enter place name) ≠ [] := by simp
      have hcheck : tree.checkDirectory place = .ok () ↔ _ := checkDirectory_eq_ok_iff
      rw [walk_cons, List.scanl_cons, List.dropLast_cons_of_ne_nil hsome, List.forall_mem_cons,
        List.forall_mem_cons, List.foldl_cons, ← checkName_eq_ok_iff, ← hcheck]
      cases hname : checkName name with
      | error error => simp [bind, Except.bind]
      | ok _ =>
          cases hplace : tree.checkDirectory place with
          | error error => simp [bind, Except.bind]
          | ok _ => simp [bind, Except.bind, ih]

theorem walk_append (tree : FileTree) (place : List String) (names rest : List String) :
    tree.walk place (names ++ rest) =
      tree.walk place names >>= fun next => tree.walk next rest := by
  induction names generalizing place with
  | nil => rfl
  | cons name names ih =>
      simp only [List.cons_append, walk_cons, ih, bind_assoc]

theorem place_eq_of_locate {path : Path} (hlocate : tree.locate path = .ok place) :
    place = path.place :=
  (walk_eq_ok_iff.mp hlocate).2.2

/-- Whether a path leads to a directory. -/
def HasDirectory (tree : FileTree) (path : Path) : Prop :=
  tree.locate path = .ok path.place ∧ tree.node? path.place = some .directory

theorem hasDirectory_of_locate {path : Path} (hlocate : tree.locate path = .ok place)
    (hplace : tree.checkDirectory place = .ok ()) : tree.HasDirectory path := by
  obtain rfl := place_eq_of_locate hlocate
  exact ⟨hlocate, checkDirectory_eq_ok_iff.mp hplace⟩

theorem hasDirectory_of_list {path : Path} (hlist : tree.list path = .ok names) :
    tree.HasDirectory path := by
  unfold list at hlist
  cases hplace : tree.locate path with
  | error error =>
      rw [hplace] at hlist
      cases hlist
  | ok place =>
      cases hcheck : tree.checkDirectory place with
      | error error =>
          simp [hplace, hcheck, bind, Except.bind] at hlist
      | ok _ => exact hasDirectory_of_locate hplace hcheck

/-- Names below a directory lead on from its place. -/
theorem HasDirectory.locate_below {path : Path} (hpath : tree.HasDirectory path)
    (names : List String) : tree.locate { path with below := path.below ++ names } =
      tree.walk path.place names := by
  have hnames : ({ path with below := path.below ++ names } : Path).names =
      path.names ++ names := by
    simp [Path.names]
  rw [locate, hnames, walk_append]
  change tree.locate path >>= _ = _
  rw [hpath.1]
  rfl

theorem HasDirectory.locate_child {path : Path} (hpath : tree.HasDirectory path)
    (hname : IsFileName name) : tree.locate (path.child name) = .ok (enter path.place name) := by
  rw [Path.child, hpath.locate_below, walk_eq_ok_iff]
  simpa [hname] using hpath.2

theorem HasDirectory.at?_child {path : Path} (hpath : tree.HasDirectory path)
    (hname : IsFileName name) :
    tree.at? (path.child name) = tree.node? (enter path.place name) := by
  rw [at?, hpath.locate_child hname]

theorem HasDirectory.at?_child_of_isProper {path : Path} (hpath : tree.HasDirectory path)
    (hname : IsFileName name) (hproper : Path.IsProper name) :
    tree.at? (path.child name) = tree.node? (path.place ++ [name]) := by
  rw [hpath.at?_child hname, Path.enter_of_isProper hproper]

/-- What stands below a directory stands there under a name that can be one. -/
theorem HasDirectory.isFileName_of_at? {path : Path} (hpath : tree.HasDirectory path)
    (hsome : tree.at? (path.child name) ≠ none) : IsFileName name := by
  rw [at?, Path.child, hpath.locate_below] at hsome
  cases hwalk : tree.walk path.place [name] with
  | error error =>
      rw [hwalk] at hsome
      exact absurd rfl hsome
  | ok place => exact (walk_eq_ok_iff.mp hwalk).1 name List.mem_cons_self

/-! ## Making directories -/

/-- Whether one tree becomes another by directories that are made at some of the places where
nothing stands. -/
def GrowsAt (places : List (List String)) (tree after : FileTree) : Prop :=
  ∀ place, after.node? place = tree.node? place ∨
    tree.node? place = none ∧ after.node? place = some .directory ∧ place ∈ places

namespace GrowsAt

variable {places more : List (List String)}

theorem refl (places : List (List String)) (tree : FileTree) : GrowsAt places tree tree :=
  fun _ => Or.inl rfl

theorem mono (hgrows : GrowsAt places tree after) (hsub : places ⊆ more) :
    GrowsAt more tree after :=
  fun place => (hgrows place).imp_right fun hmade => ⟨hmade.1, hmade.2.1, hsub hmade.2.2⟩

theorem trans (hfirst : GrowsAt places tree after) (hsecond : GrowsAt places after last) :
    GrowsAt places tree last := by
  intro place
  rcases hfirst place with hsame | ⟨hnone, hmade, hmem⟩
  · rw [← hsame]
    exact hsecond place
  · refine Or.inr ⟨hnone, ?_, hmem⟩
    rcases hsecond place with hsame | ⟨hnone', _⟩
    · rw [hsame, hmade]
    · rw [hmade] at hnone'
      cases hnone'

theorem node?_of_some (hgrows : GrowsAt places tree after) {node : Node}
    (hnode : tree.node? place = some node) : after.node? place = some node := by
  rcases hgrows place with hsame | ⟨hnone, _⟩
  · rw [hsame, hnode]
  · rw [hnode] at hnone
    cases hnone

theorem node?_file_iff (hgrows : GrowsAt places tree after) {content : String} :
    after.node? place = some (.file content) ↔ tree.node? place = some (.file content) := by
  refine ⟨fun hafter => ?_, hgrows.node?_of_some⟩
  rcases hgrows place with hsame | ⟨_, hmade, _⟩
  · rw [← hsame, hafter]
  · rw [hafter] at hmade
    cases hmade

/-- Where names led, they still lead. -/
theorem walk (hgrows : GrowsAt places tree after) (hwalk : tree.walk place names = .ok other) :
    after.walk place names = .ok other := by
  obtain ⟨hnames, hpassed, heq⟩ := walk_eq_ok_iff.mp hwalk
  exact walk_eq_ok_iff.mpr
    ⟨hnames, fun passed hmem => hgrows.node?_of_some (hpassed passed hmem), heq⟩

theorem hasDirectory {path : Path} (hgrows : GrowsAt places tree after)
    (hpath : tree.HasDirectory path) : after.HasDirectory path :=
  ⟨hgrows.walk hpath.1, hgrows.node?_of_some hpath.2⟩

/-- What could be read can still be read after directories were made. -/
theorem at?_of_some {path : Path} {node : Node} (hgrows : GrowsAt places tree after)
    (hat : tree.at? path = some node) : after.at? path = some node := by
  unfold at? at hat ⊢
  cases hplace : tree.locate path with
  | error error =>
      rw [hplace] at hat
      cases hat
  | ok place =>
      rw [hplace] at hat
      rw [locate, hgrows.walk hplace]
      exact hgrows.node?_of_some hat

end GrowsAt

/-- A tree with a directory at a place, unless something stands there. -/
def ensure (tree : FileTree) (place : List String) : FileTree :=
  match tree.node? place with
  | some _ => tree
  | none => tree.put place .directory

theorem growsAt_ensure (tree : FileTree) (place : List String) :
    GrowsAt [place] tree (tree.ensure place) := by
  unfold ensure
  split
  next => exact .refl [place] tree
  next hnone =>
    have hplace : place ≠ [] := ne_nil_of_node? (by rw [hnone]; nofun)
    intro other
    rw [node?_put hplace]
    split
    next heq => exact Or.inr ⟨heq ▸ hnone, rfl, List.mem_singleton.mpr heq⟩
    next => exact Or.inl rfl

theorem node?_ensure (hfile : ∀ content, tree.node? place ≠ some (.file content)) :
    (tree.ensure place).node? place = some .directory := by
  unfold ensure
  split
  next node hnode =>
    cases node with
    | directory => exact hnode
    | file content => exact absurd hnode (hfile content)
  next hnone => rw [node?_put (ne_nil_of_node? (by rw [hnone]; nofun)), if_pos rfl]

/-- A tree in which a name leads on, if it is one of something in a directory. -/
def makeNext (tree : FileTree) (place : List String) (name : String) : FileTree :=
  if Path.IsProper name then tree.ensure (enter place name) else tree

theorem growsAt_makeNext (tree : FileTree) (place : List String) (name : String) :
    GrowsAt [enter place name] tree (tree.makeNext place name) := by
  unfold makeNext
  split
  · exact growsAt_ensure tree _
  · exact .refl _ tree

/-- The places above the next one are directories again, unless that one is a file. -/
theorem node?_makeNext (habove : ∀ above, above <+: place → tree.node? above = some .directory)
    (hfile : ∀ content, tree.node? (enter place name) ≠ some (.file content)) {above : List String}
    (hreached : above <+: enter place name) :
    (tree.makeNext place name).node? above = some .directory := by
  have hgrows := growsAt_makeNext tree place name
  by_cases hname : Path.IsProper name
  · rw [Path.enter_of_isProper hname, List.prefix_concat_iff,
      ← Path.enter_of_isProper hname] at hreached
    rcases hreached with rfl | hreached
    · rw [makeNext, if_pos hname]
      exact node?_ensure hfile
    · exact hgrows.node?_of_some (habove above hreached)
  · exact hgrows.node?_of_some
      (habove above (hreached.trans (Path.enter_prefix_of_not_isProper hname place)))

/-- What the first name on the way to a directory does, if it and the place before it are good. -/
theorem makeAlong_cons_of_ok (hname : checkName name = .ok ())
    (hplace : tree.checkDirectory place = .ok ()) (names : List String) :
    makeAlong place (name :: names) tree =
      makeAlong (enter place name) names (tree.makeNext place name) := by
  rw [makeAlong, hname, hplace, makeNext]
  dsimp only
  by_cases hstays : name = "" ∨ name = "."
  · have hproper : ¬ Path.IsProper name := fun h => hstays.elim h.1 h.2.1
    simp [enter, hstays, hproper]
  · obtain ⟨hsome, hpoint⟩ := not_or.mp hstays
    by_cases hup : name = ".."
    · simp [enter, hup, Path.IsProper]
    · have hproper : Path.IsProper name := ⟨hsome, hpoint, hup⟩
      rw [if_neg (by simp [hsome, hpoint]), if_neg hup, if_pos hproper,
        Path.enter_of_isProper hproper, ensure]
      cases tree.node? (place ++ [name]) <;> rfl

/-- Where the first name or the place before it is not good, nothing is made. -/
theorem makeAlong_cons_of_error
    (hbad : checkName name ≠ .ok () ∨ tree.checkDirectory place ≠ .ok ()) (names : List String) :
    ∃ error, makeAlong place (name :: names) tree = (.error error, tree) := by
  rw [makeAlong]
  cases hname : checkName name with
  | error error => exact ⟨error, rfl⟩
  | ok _ =>
      cases hplace : tree.checkDirectory place with
      | error error => exact ⟨error, rfl⟩
      | ok _ => exact absurd hplace (hbad.resolve_left fun h => h hname)

theorem growsAt_makeAlong (tree : FileTree) (place : List String) (names : List String) :
    GrowsAt (names.scanl enter place) tree (makeAlong place names tree).2 := by
  induction names generalizing place tree with
  | nil => exact .refl _ tree
  | cons name names ih =>
      by_cases hgood : checkName name = .ok () ∧ tree.checkDirectory place = .ok ()
      · rw [makeAlong_cons_of_ok hgood.1 hgood.2, List.scanl_cons]
        have hfirst : [enter place name] ⊆ names.scanl enter (enter place name) := by
          cases names <;> simp
        have hgrows := ((growsAt_makeNext tree place name).mono hfirst).trans (ih _ _)
        exact hgrows.mono (List.subset_cons_self _ _)
      · obtain ⟨error, herror⟩ := makeAlong_cons_of_error (not_and_or.mp hgood) names
        rw [herror]
        exact .refl _ tree

/-- Where all directories on the way could be made, names lead there. -/
theorem walk_makeAlong (hmade : (makeAlong place names tree).1 = .ok ()) :
    (makeAlong place names tree).2.walk place names = .ok (names.foldl enter place) ∧
      (makeAlong place names tree).2.node? (names.foldl enter place) = some .directory := by
  induction names generalizing place tree with
  | nil => exact ⟨rfl, checkDirectory_eq_ok_iff.mp hmade⟩
  | cons name names ih =>
      by_cases hgood : checkName name = .ok () ∧ tree.checkDirectory place = .ok ()
      · have hgrows := growsAt_makeAlong tree place (name :: names)
        rw [makeAlong_cons_of_ok hgood.1 hgood.2] at hmade hgrows ⊢
        have hplace := hgrows.node?_of_some (checkDirectory_eq_ok_iff.mp hgood.2)
        refine ⟨?_, (ih hmade).2⟩
        rw [walk_cons, hgood.1, checkDirectory_eq_ok_iff.mpr hplace]
        exact (ih hmade).1
      · obtain ⟨error, herror⟩ := makeAlong_cons_of_error (not_and_or.mp hgood) names
        rw [herror] at hmade
        cases hmade

/-- No directories are made behind a file. -/
theorem makeAlong_of_file {content : String} (hfile : tree.node? place = some (.file content))
    (names : List String) : (makeAlong place names tree).1 ≠ .ok () := by
  have hplace : tree.checkDirectory place ≠ .ok () := by
    rw [ne_eq, checkDirectory_eq_ok_iff, hfile]
    nofun
  cases names with
  | nil => exact hplace
  | cons name names =>
      obtain ⟨error, herror⟩ := makeAlong_cons_of_error (Or.inr hplace) names
      rw [herror]
      nofun

/-- Directories can be made along names that can be ones, unless a file stands on the way. The
places above the first one are directories, so that two points lead to one. -/
theorem makeAlong_eq_ok_iff
    (habove : ∀ above, above <+: place → tree.node? above = some .directory) :
    (makeAlong place names tree).1 = .ok () ↔ (∀ name ∈ names, IsFileName name) ∧
      ∀ passed ∈ names.scanl enter place, ∀ content,
        tree.node? passed ≠ some (.file content) := by
  have hplace : tree.node? place = some .directory := habove place List.prefix_rfl
  induction names generalizing place tree with
  | nil => simp [makeAlong, checkDirectory_eq_ok_iff, hplace]
  | cons name names ih =>
      rw [List.forall_mem_cons, List.scanl_cons, List.forall_mem_cons, ← checkName_eq_ok_iff]
      by_cases hname : checkName name = .ok ()
      · rw [makeAlong_cons_of_ok hname (checkDirectory_eq_ok_iff.mpr hplace)]
        have hgrows := growsAt_makeNext tree place name
        -- A file in the next place ends the way; otherwise a directory stands there now.
        by_cases hfile : ∃ content, tree.node? (enter place name) = some (.file content)
        · obtain ⟨content, hfile⟩ := hfile
          have hmem : enter place name ∈ names.scanl enter (enter place name) := by
            cases names <;> simp
          constructor
          · exact fun hmade => absurd hmade (makeAlong_of_file (hgrows.node?_of_some hfile) names)
          · exact fun hclear => absurd hfile (hclear.2.2 _ hmem content)
        · have hnext : ∀ above, above <+: enter place name →
              (tree.makeNext place name).node? above = some .directory :=
            fun above => node?_makeNext habove (not_exists.mp hfile)
          refine (ih hnext (hnext _ List.prefix_rfl)).trans ?_
          simp [hname, hplace, hgrows.node?_file_iff]
      · have hfails : ∃ error, makeAlong place (name :: names) tree = (.error error, tree) :=
          makeAlong_cons_of_error (Or.inl hname) names
        obtain ⟨error, herror⟩ := hfails
        simp [herror, hname]

/-- Whether a directory stands where a path leads, or can be made there: its names can be ones, and
no file stands on the way. -/
structure IsClear (tree : FileTree) (path : Path) : Prop where
  names : ∀ name ∈ path.names, IsFileName name
  places : ∀ place ∈ path.way, ∀ content, tree.node? place ≠ some (.file content)

theorem makeDirectories_eq_ok_iff {path : Path} :
    (tree.makeDirectories path).1 = .ok () ↔ tree.IsClear path := by
  rw [makeDirectories, makeAlong_eq_ok_iff]
  · exact ⟨fun hclear => ⟨hclear.1, hclear.2⟩, fun hclear => ⟨hclear.names, hclear.places⟩⟩
  · intro above habove
    rw [List.prefix_nil.mp habove, node?_nil]

/-- The tree in which a directory was made, as far as it could be. -/
def made (tree : FileTree) (path : Path) : FileTree := (tree.makeDirectories path).2

theorem growsAt_made (tree : FileTree) (path : Path) : GrowsAt path.way tree (tree.made path) :=
  growsAt_makeAlong tree [] path.names

theorem makeDirectories_of_isClear {path : Path} (hclear : tree.IsClear path) :
    tree.makeDirectories path = (.ok (), tree.made path) :=
  Prod.ext (makeDirectories_eq_ok_iff.mpr hclear) rfl

theorem hasDirectory_made {path : Path} (hclear : tree.IsClear path) :
    (tree.made path).HasDirectory path :=
  walk_makeAlong (makeDirectories_eq_ok_iff.mpr hclear)

end FileTree

end EntityModel
