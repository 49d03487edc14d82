import EntityModel.Collection.OrderedMap
import EntityModel.File.Flatten
import EntityModel.Proofs.File.Tree

/-!
# Walks through directories

The files below a directory are found by a walk that lists one directory after the other, each in
some order. However the directories of a tree are listed, there is a walk (`exists_collects`), and
it finds every file once (`Collects.perm_filesBelow`).
-/

namespace EntityModel.FileTree

variable {tree : FileTree} {place folder names relative : List String} {name content : String}
  {node : Node}

/-! ## Trees -/

/-- Whether entries are those of a tree: each place has one entry at most, names are those of
something in a directory, and what stands anywhere stands in directories. -/
structure IsTree (tree : FileTree) : Prop where
  nodup : (tree.entries.map Prod.fst).Nodup
  form : ∀ place name, tree.node? (place ++ [name]) ≠ none → IsFileName name ∧ Path.IsProper name
  above : ∀ place name, tree.node? (place ++ [name]) ≠ none → tree.node? place = some .directory

theorem node?_eq_lookup (hplace : place ≠ []) : tree.node? place = tree.entries.lookup place :=
  if_neg (by simpa using hplace)

namespace IsTree

theorem mem_entries_iff (htree : tree.IsTree) (hplace : place ≠ []) :
    (place, node) ∈ tree.entries ↔ tree.node? place = some node := by
  rw [node?_eq_lookup hplace, lookup_eq_some_iff_mem htree.nodup]

/-- What stands below a place stands in directories from there on. -/
theorem directory_of_below (htree : tree.IsTree) (hsome : tree.node? (place ++ names) ≠ none)
    (hnames : names ≠ []) : tree.node? place = some .directory := by
  induction names using List.reverseRecOn with
  | nil => exact absurd rfl hnames
  | append_singleton front last ih =>
      rw [← List.append_assoc] at hsome
      have hfront := htree.above _ _ hsome
      by_cases hmore : front = []
      · simpa [hmore] using hfront
      · exact ih (by rw [hfront]; nofun) hmore

theorem ne_none_of_below (htree : tree.IsTree) (hsome : tree.node? (place ++ names) ≠ none) :
    tree.node? place ≠ none := by
  by_cases hnames : names = []
  · simpa [hnames] using hsome
  · rw [htree.directory_of_below hsome hnames]
    nofun

/-- Names lead to what stands below a directory. -/
theorem walk_eq_ok (htree : tree.IsTree) (hsome : tree.node? (place ++ names) ≠ none) :
    tree.walk place names = .ok (place ++ names) := by
  induction names generalizing place with
  | nil => rw [List.append_nil, walk]
  | cons name names ih =>
      have hplace := htree.directory_of_below hsome (List.cons_ne_nil _ _)
      rw [List.append_cons] at hsome ⊢
      obtain ⟨hform, hproper⟩ := htree.form _ _ (htree.ne_none_of_below hsome)
      rw [walk_cons, checkName_eq_ok_iff.mpr hform, checkDirectory_eq_ok_iff.mpr hplace,
        Path.enter_of_isProper hproper]
      exact ih hsome

end IsTree

/-- It is enough to look at the entries. -/
theorem isTree_iff : tree.IsTree ↔ (tree.entries.map Prod.fst).Nodup ∧
    ∀ entry ∈ tree.entries, ∀ name ∈ entry.1.getLast?,
      IsFileName name ∧ Path.IsProper name ∧ tree.node? entry.1.dropLast = some .directory := by
  constructor
  · intro htree
    refine ⟨htree.nodup, fun ⟨place, node⟩ hmem name hname => ?_⟩
    obtain ⟨folder, rfl⟩ := List.getLast?_eq_some_iff.mp hname
    have hnode : tree.node? (folder ++ [name]) ≠ none := by
      rw [(htree.mem_entries_iff (by simp)).mp hmem]
      nofun
    obtain ⟨hform, hproper⟩ := htree.form folder name hnode
    exact ⟨hform, hproper, by simpa using htree.above folder name hnode⟩
  · rintro ⟨hnodup, hentries⟩
    have hstands : ∀ place name, tree.node? (place ++ [name]) ≠ none →
        IsFileName name ∧ Path.IsProper name ∧ tree.node? place = some .directory := by
      intro place name hnode
      obtain ⟨node, hnode⟩ := Option.ne_none_iff_exists'.mp hnode
      rw [node?_eq_lookup (by simp), lookup_eq_some_iff_mem hnodup] at hnode
      simpa using hentries _ hnode name (by simp)
    constructor
    · exact hnodup
    · exact fun place name hnode =>
        ⟨(hstands place name hnode).1, (hstands place name hnode).2.1⟩
    · exact fun place name hnode => (hstands place name hnode).2.2

instance (tree : FileTree) : Decidable tree.IsTree := decidable_of_iff _ isTree_iff.symm

theorem mem_map_putEntry {entries : List (List String × Node)} {other : List String}
    (hmem : other ∈ (putEntry place node entries).map Prod.fst) :
    other = place ∨ other ∈ entries.map Prod.fst := by
  induction entries with
  | nil => exact Or.inl (List.mem_singleton.mp hmem)
  | cons entry entries ih =>
      unfold putEntry at hmem
      split at hmem
      next heq =>
        rcases List.mem_cons.mp hmem with rfl | hmem
        · exact Or.inl rfl
        · exact Or.inr (List.mem_cons_of_mem _ hmem)
      next =>
        rcases List.mem_cons.mp hmem with rfl | hmem
        · exact Or.inr List.mem_cons_self
        · exact (ih hmem).imp_right (List.mem_cons_of_mem _)

theorem nodup_putEntry {entries : List (List String × Node)} (place : List String) (node : Node)
    (hnodup : (entries.map Prod.fst).Nodup) :
    ((putEntry place node entries).map Prod.fst).Nodup := by
  induction entries with
  | nil => simp [putEntry]
  | cons entry entries ih =>
      obtain ⟨first, old⟩ := entry
      obtain ⟨hfirst, hnodup⟩ := List.nodup_cons.mp hnodup
      unfold putEntry
      split
      next heq => exact List.nodup_cons.mpr ⟨heq ▸ hfirst, hnodup⟩
      next hne =>
        refine List.nodup_cons.mpr ⟨fun hmem => ?_, ih hnodup⟩
        exact (mem_map_putEntry hmem).elim hne hfirst

/-- A tree stays one if something is put into a directory, except for files in the place of
directories. -/
theorem IsTree.put (htree : tree.IsTree) (hplace : tree.node? place = some .directory)
    (hform : IsFileName name) (hproper : Path.IsProper name)
    (hnode : node = .directory ∨ tree.node? (place ++ [name]) ≠ some .directory) :
    (tree.put (place ++ [name]) node).IsTree := by
  have hput : ∀ other, (tree.put (place ++ [name]) node).node? other =
      if other = place ++ [name] then some node else tree.node? other := node?_put (by simp) node
  have hstill : ∀ other, tree.node? other = some .directory →
      (tree.put (place ++ [name]) node).node? other = some .directory := by
    intro other hother
    rw [hput]
    split
    next heq =>
      rw [hnode.resolve_right fun hnot => hnot (heq ▸ hother)]
    next => exact hother
  -- What stands after was put there or stood before.
  have hcases : ∀ folder last, (tree.put (place ++ [name]) node).node? (folder ++ [last]) ≠ none →
      (folder = place ∧ last = name) ∨ tree.node? (folder ++ [last]) ≠ none := by
    intro folder last hsome
    rw [hput] at hsome
    split at hsome
    next heq =>
      obtain ⟨hfolder, hlast⟩ := List.append_inj' heq rfl
      exact Or.inl ⟨hfolder, List.singleton_inj.mp hlast⟩
    next => exact Or.inr hsome
  constructor
  · exact nodup_putEntry _ _ htree.nodup
  · intro folder last hsome
    rcases hcases folder last hsome with ⟨_, rfl⟩ | hsome
    · exact ⟨hform, hproper⟩
    · exact htree.form folder last hsome
  · intro folder last hsome
    rcases hcases folder last hsome with ⟨rfl, _⟩ | hsome
    · exact hstill _ hplace
    · exact hstill _ (htree.above folder last hsome)

theorem IsTree.makeNext (htree : tree.IsTree) (hplace : tree.node? place = some .directory)
    (hform : IsFileName name) : (tree.makeNext place name).IsTree := by
  unfold FileTree.makeNext
  split
  next hproper =>
    rw [Path.enter_of_isProper hproper, ensure]
    split
    · exact htree
    · exact htree.put hplace hform hproper (Or.inl rfl)
  next => exact htree

theorem IsTree.makeAlong (htree : tree.IsTree) (place names : List String) :
    (FileTree.makeAlong place names tree).2.IsTree := by
  induction names generalizing tree place with
  | nil => exact htree
  | cons name names ih =>
      by_cases hgood : checkName name = .ok () ∧ tree.checkDirectory place = .ok ()
      · rw [makeAlong_cons_of_ok hgood.1 hgood.2]
        refine ih (htree.makeNext ?_ ?_) _
        · exact checkDirectory_eq_ok_iff.mp hgood.2
        · exact checkName_eq_ok_iff.mp hgood.1
      · obtain ⟨error, herror⟩ := makeAlong_cons_of_error (not_and_or.mp hgood) names
        rw [herror]
        exact htree

/-- A tree stays one when directories are made. -/
theorem IsTree.made (htree : tree.IsTree) (path : Path) : (tree.made path).IsTree :=
  htree.makeAlong [] path.names

/-! ## What a directory has -/

/-- Places in a directory are those that the name at their end leads to. -/
theorem name?_eq_some_iff {other : List String} :
    (if other.dropLast = place then other.getLast? else none) = some name ↔
      other = place ++ [name] := by
  constructor
  · intro hname
    split at hname
    next hplace => rw [← hplace, List.dropLast_append_getLast? name hname]
    next => cases hname
  · rintro rfl
    simp

theorem mem_namesIn_iff : name ∈ tree.namesIn place ↔ tree.node? (place ++ [name]) ≠ none := by
  rw [node?_eq_lookup (by simp), ← Option.isSome_iff_ne_none, List.lookup_isSome_iff, namesIn,
    List.mem_filterMap]
  constructor
  · rintro ⟨entry, hmem, hname⟩
    exact ⟨entry, hmem, beq_iff_eq.mpr (name?_eq_some_iff.mp hname).symm⟩
  · rintro ⟨entry, hmem, hplace⟩
    exact ⟨entry, hmem, name?_eq_some_iff.mpr (beq_iff_eq.mp hplace).symm⟩

theorem IsTree.nodup_namesIn (htree : tree.IsTree) (place : List String) :
    (tree.namesIn place).Nodup := by
  rw [namesIn, List.Nodup, List.pairwise_filterMap]
  refine (List.pairwise_map.mp htree.nodup).imp ?_
  rintro first second hne name hfirst other hsecond rfl
  exact hne ((name?_eq_some_iff.mp hfirst).trans (name?_eq_some_iff.mp hsecond).symm)

theorem below?_eq_some_iff {directory : List String} :
    below? directory place = some relative ↔ place = directory ++ relative ∧ relative ≠ [] := by
  induction directory generalizing place with
  | nil =>
      cases place with
      | nil => simp [below?, eq_comm]
      | cons name place =>
          rw [below?, Option.some_inj, List.nil_append]
          exact ⟨fun heq => ⟨heq, heq ▸ List.cons_ne_nil _ _⟩, And.left⟩
  | cons name directory ih =>
      cases place with
      | nil => simp [below?]
      | cons other place =>
          by_cases heq : name = other
          · simp [below?, heq, ih]
          · simp [below?, heq, Ne.symm heq]

/-- Whether a file stands below a place, and not below a directory of the version control there. -/
def HasFile (tree : FileTree) (place relative : List String) (content : String) : Prop :=
  ".git" ∉ relative.dropLast ∧ tree.node? (place ++ relative) = some (.file content)

theorem fileBelow?_eq_some_iff {directory : List String} {entry : List String × Node} :
    fileBelow? directory entry = some relative ↔ entry.1 = directory ++ relative ∧
      relative ≠ [] ∧ ".git" ∉ relative.dropLast ∧ ∃ content, entry.2 = .file content := by
  obtain ⟨other, node⟩ := entry
  cases node with
  | directory => simp [fileBelow?]
  | file content => simp [fileBelow?, Option.filter_eq_some_iff, below?_eq_some_iff, and_assoc]

theorem IsTree.mem_filesBelow_iff (htree : tree.IsTree)
    (hplace : tree.node? place = some .directory) :
    relative ∈ tree.filesBelow place ↔ ∃ content, tree.HasFile place relative content := by
  rw [filesBelow, List.mem_filterMap]
  constructor
  · rintro ⟨⟨other, node⟩, hmem, hfile⟩
    obtain ⟨rfl, hsome, hvisible, content, rfl⟩ := fileBelow?_eq_some_iff.mp hfile
    exact ⟨content, hvisible, (htree.mem_entries_iff (by simp [hsome])).mp hmem⟩
  · rintro ⟨content, hvisible, hfile⟩
    have hsome : relative ≠ [] := by
      rintro rfl
      rw [List.append_nil, hplace] at hfile
      cases hfile
    exact ⟨(place ++ relative, .file content),
      (htree.mem_entries_iff (by simp [hsome])).mpr hfile,
      fileBelow?_eq_some_iff.mpr ⟨rfl, hsome, hvisible, content, rfl⟩⟩

theorem IsTree.nodup_filesBelow (htree : tree.IsTree) (place : List String) :
    (tree.filesBelow place).Nodup := by
  rw [filesBelow, List.Nodup, List.pairwise_filterMap]
  refine (List.pairwise_map.mp htree.nodup).imp ?_
  rintro first second hne relative hfirst other hsecond rfl
  exact hne ((fileBelow?_eq_some_iff.mp hfirst).1.trans (fileBelow?_eq_some_iff.mp hsecond).1.symm)

/-! ## Walks -/

/-- A walk through what stands below a place: it goes through the names in a folder as they are
listed, leaves out directories of the version control, enters other ones, and takes the rest. The
result is the places of the files that it takes, relative to where it starts. -/
inductive Collects (tree : FileTree) (place : List String) (listing : List String → List String) :
    List String → List String → List (List String) → Prop
  | done (folder : List String) : Collects tree place listing folder [] []
  | skip {folder rest : List String} {files : List (List String)}
      (hnode : tree.node? (place ++ folder ++ [".git"]) = some .directory)
      (hrest : Collects tree place listing folder rest files) :
      Collects tree place listing folder (".git" :: rest) files
  | enter {folder rest : List String} {name : String} {inner files : List (List String)}
      (hnode : tree.node? (place ++ folder ++ [name]) = some .directory) (hname : name ≠ ".git")
      (hinner : Collects tree place listing (folder ++ [name]) (listing (folder ++ [name])) inner)
      (hrest : Collects tree place listing folder rest files) :
      Collects tree place listing folder (name :: rest) (inner ++ files)
  | take {folder rest : List String} {name content : String} {files : List (List String)}
      (hnode : tree.node? (place ++ folder ++ [name]) = some (.file content))
      (hrest : Collects tree place listing folder rest files) :
      Collects tree place listing folder (name :: rest) ((folder ++ [name]) :: files)

/-- Whether folders below a place are listed as they are, in some order. -/
def Lists (tree : FileTree) (place : List String) (listing : List String → List String) : Prop :=
  ∀ folder, (listing folder).Perm (tree.namesIn (place ++ folder))

section

variable {listing : List String → List String} {files : List (List String)}

/-- A file below a directory stands there under the name of something that it has. -/
theorem HasFile.exists_next (htree : tree.IsTree) (hfile : tree.HasFile place relative content)
    (hbelow : folder <+: relative) (hnode : tree.node? (place ++ folder) = some .directory) :
    ∃ next more, relative = folder ++ next :: more ∧ next ∈ tree.namesIn (place ++ folder) := by
  obtain ⟨more, rfl⟩ := hbelow
  have hstands := hfile.2
  rw [← List.append_assoc] at hstands
  cases more with
  | nil =>
      rw [List.append_nil, hnode] at hstands
      cases hstands
  | cons next more =>
      rw [List.append_cons] at hstands
      exact ⟨next, more, rfl,
        mem_namesIn_iff.mpr (htree.ne_none_of_below (by rw [hstands]; nofun))⟩

/-- What stands below a directory of the version control is not a file to be found. -/
theorem HasFile.not_below (htree : tree.IsTree) (hfile : tree.HasFile place relative content)
    (hnode : tree.node? (place ++ (folder ++ [".git"])) = some .directory) :
    ¬ folder ++ [".git"] <+: relative := by
  intro hbelow
  obtain ⟨next, more, rfl, _⟩ := hfile.exists_next htree hbelow hnode
  refine hfile.1 ?_
  rw [List.dropLast_append_of_ne_nil (List.cons_ne_nil _ _)]
  simp

/-- Nothing stands below a file. -/
theorem HasFile.eq_of_below (htree : tree.IsTree) (hfile : tree.HasFile place relative content)
    {other : String} (hnode : tree.node? (place ++ folder) = some (.file other))
    (hbelow : folder <+: relative) : relative = folder := by
  obtain ⟨more, rfl⟩ := hbelow
  by_cases hmore : more = []
  · rw [hmore, List.append_nil]
  · have hstands := hfile.2
    rw [← List.append_assoc] at hstands
    have hdirectory := htree.directory_of_below (by rw [hstands]; nofun) hmore
    rw [hnode] at hdirectory
    cases hdirectory

/-- A walk that goes through names takes the files that stand there and below. -/
theorem Collects.mem_iff (htree : tree.IsTree) (hlists : tree.Lists place listing)
    (hwalk : Collects tree place listing folder names files) (hfolder : ".git" ∉ folder) :
    relative ∈ files ↔ (∃ name ∈ names, folder ++ [name] <+: relative) ∧
      ∃ content, tree.HasFile place relative content := by
  induction hwalk with
  | done folder => simp
  | @skip folder rest files hnode hrest ih =>
      rw [ih hfolder, List.exists_mem_cons_iff, or_and_right, or_iff_right]
      rintro ⟨hbelow, content, hfile⟩
      rw [List.append_assoc] at hnode
      exact hfile.not_below htree hnode hbelow
  | @enter folder rest name inner files hnode hname hinner hrest ihinner ihrest =>
      have hinnerFolder : ".git" ∉ folder ++ [name] := by simp [hfolder, Ne.symm hname]
      rw [List.mem_append, ihinner hinnerFolder, ihrest hfolder, List.exists_mem_cons_iff,
        or_and_right]
      -- Both sides ask for a file, so only the places remain to be compared.
      refine or_congr_left (and_congr_left ?_)
      rintro ⟨content, hfile⟩
      constructor
      · rintro ⟨next, _, hbelow⟩
        exact (List.prefix_append _ _).trans hbelow
      · intro hbelow
        rw [List.append_assoc] at hnode
        obtain ⟨next, more, rfl, hnext⟩ := hfile.exists_next htree hbelow hnode
        refine ⟨next, (hlists _).mem_iff.mpr hnext, more, ?_⟩
        simp
  | @take folder rest name content files hnode hrest ih =>
      rw [List.mem_cons, ih hfolder, List.exists_mem_cons_iff, or_and_right]
      rw [List.append_assoc] at hnode
      refine or_congr_left ⟨?_, ?_⟩
      · rintro rfl
        exact ⟨List.prefix_rfl, content, by simpa using hfolder, hnode⟩
      · rintro ⟨hbelow, other, hfile⟩
        exact hfile.eq_of_below htree hnode hbelow

theorem eq_of_below_both {other : String} (hfirst : folder ++ [name] <+: relative)
    (hsecond : folder ++ [other] <+: relative) : name = other := by
  have hsame := List.prefix_of_prefix_length_le hfirst hsecond (by simp)
  simpa using hsame.eq_of_length (by simp)

theorem Collects.nodup (htree : tree.IsTree) (hlists : tree.Lists place listing)
    (hwalk : Collects tree place listing folder names files) (hfolder : ".git" ∉ folder)
    (hnames : names.Nodup) : files.Nodup := by
  induction hwalk with
  | done folder => exact List.nodup_nil
  | skip hnode hrest ih => exact ih hfolder (List.nodup_cons.mp hnames).2
  | @enter folder rest name inner files hnode hname hinner hrest ihinner ihrest =>
      obtain ⟨hnew, hnodup⟩ := List.nodup_cons.mp hnames
      have hinnerFolder : ".git" ∉ folder ++ [name] := by simp [hfolder, Ne.symm hname]
      refine List.nodup_append.mpr ⟨?_, ihrest hfolder hnodup, ?_⟩
      · exact ihinner hinnerFolder ((hlists _).nodup_iff.mpr (htree.nodup_namesIn _))
      · -- A file below both would stand below two names of one folder.
        rintro relative hmem _ hother rfl
        obtain ⟨⟨next, _, hbelow⟩, _⟩ := (hinner.mem_iff htree hlists hinnerFolder).mp hmem
        obtain ⟨⟨other, hrestMem, hotherBelow⟩, _⟩ := (hrest.mem_iff htree hlists hfolder).mp hother
        obtain rfl := eq_of_below_both ((List.prefix_append _ _).trans hbelow) hotherBelow
        exact hnew hrestMem
  | @take folder rest name content files hnode hrest ih =>
      obtain ⟨hnew, hnodup⟩ := List.nodup_cons.mp hnames
      refine List.nodup_cons.mpr ⟨fun hmem => ?_, ih hfolder hnodup⟩
      obtain ⟨⟨other, hrestMem, hbelow⟩, _⟩ := (hrest.mem_iff htree hlists hfolder).mp hmem
      obtain rfl := eq_of_below_both List.prefix_rfl hbelow
      exact hnew hrestMem

/-- A walk through all that stands below a directory finds its files, each once. -/
theorem Collects.perm_filesBelow (htree : tree.IsTree)
    (hplace : tree.node? place = some .directory) (hlists : tree.Lists place listing)
    (hwalk : Collects tree place listing [] (listing []) files) :
    files.Perm (tree.filesBelow place) := by
  have hnames : (listing []).Nodup := (hlists []).nodup_iff.mpr (htree.nodup_namesIn _)
  have hnodup := hwalk.nodup htree hlists List.not_mem_nil hnames
  refine (List.perm_ext_iff_of_nodup hnodup (htree.nodup_filesBelow place)).mpr fun relative => ?_
  rw [hwalk.mem_iff htree hlists List.not_mem_nil, htree.mem_filesBelow_iff hplace]
  refine and_iff_right_of_imp ?_
  rintro ⟨content, hfile⟩
  rw [← List.append_nil place] at hplace
  obtain ⟨next, more, rfl, hnext⟩ := hfile.exists_next htree List.nil_prefix hplace
  exact ⟨next, (hlists []).mem_iff.mpr hnext, List.prefix_append [next] more⟩

/-- However directories are listed, a walk comes to its end: each directory that is entered has a
longer place, and places in a tree are not longer than the longest one. -/
theorem exists_collects_of_stands {bound : Nat} (hlists : tree.Lists place listing)
    (hbound : ∀ place, tree.node? place ≠ none → place.length ≤ bound) (folder : List String)
    (hnames : ∀ name ∈ names, tree.node? (place ++ folder ++ [name]) ≠ none) :
    ∃ files, Collects tree place listing folder names files := by
  -- The outer induction is on how much longer places can get, the inner one on the names listed.
  induction hleft : bound - folder.length using Nat.strongRecOn generalizing folder names with
  | ind left ih =>
      induction names with
      | nil => exact ⟨[], .done folder⟩
      | cons name rest ihrest =>
          obtain ⟨hname, hrestNames⟩ := List.forall_mem_cons.mp hnames
          obtain ⟨files, hrest⟩ := ihrest hrestNames
          cases hnode : tree.node? (place ++ folder ++ [name]) with
          | none => exact absurd hnode hname
          | some node =>
              cases node with
              | file content => exact ⟨_, .take hnode hrest⟩
              | directory =>
                  by_cases hgit : name = ".git"
                  · subst hgit
                    exact ⟨_, .skip hnode hrest⟩
                  · have hlonger : bound - (folder ++ [name]).length < left := by
                      have hlength := hbound _ hname
                      simp only [List.length_append, List.length_cons, List.length_nil] at hlength ⊢
                      omega
                    have hinnerNames : ∀ next ∈ listing (folder ++ [name]),
                        tree.node? (place ++ (folder ++ [name]) ++ [next]) ≠ none :=
                      fun next hmem => mem_namesIn_iff.mp ((hlists _).mem_iff.mp hmem)
                    obtain ⟨inner, hinner⟩ := ih _ hlonger (folder ++ [name]) hinnerNames rfl
                    exact ⟨_, .enter hnode hgit hinner hrest⟩

theorem exists_length_le (tree : FileTree) :
    ∃ bound, ∀ place, tree.node? place ≠ none → place.length ≤ bound := by
  refine ⟨(tree.entries.map Prod.fst).flatten.length, fun place hstands => ?_⟩
  by_cases hplace : place = []
  · rw [hplace]
    exact Nat.zero_le _
  · rw [node?_eq_lookup hplace, ← Option.isSome_iff_ne_none, List.lookup_isSome_iff] at hstands
    obtain ⟨entry, hmem, heq⟩ := hstands
    rw [beq_iff_eq.mp heq]
    exact (List.sublist_flatten_of_mem (List.mem_map_of_mem hmem)).length_le

theorem exists_collects (hlists : tree.Lists place listing) :
    ∃ files, Collects tree place listing [] (listing []) files := by
  obtain ⟨bound, hbound⟩ := exists_length_le tree
  refine exists_collects_of_stands hlists hbound [] fun name hmem => mem_namesIn_iff.mp ?_
  exact (hlists []).mem_iff.mp hmem

end

end EntityModel.FileTree
