import EntityModel.Proofs.Collection.OrderedMap
import EntityModel.Proofs.File.Walk
import EntityModel.Proofs.File.Writing
import EntityModel.Proofs.Text.ByteOrder

/-!
# Flattened directories

The files below a directory are copied into another one, each under its own name. They are sorted
first, so that it does not matter in which order a walk finds them; of files with one name the
greatest place wins, where places are compared name by name (`flattenInto_eq_ok`).
-/

namespace EntityModel.FileTree

open EntityModel.Path (enter)

variable {tree after : FileTree} {source target : Path} {place relative : List String}
  {name content : String} {files : List (List String)}

/-! ## Order -/

theorem placeLe_eq_true_iff {first second : List String} :
    placeLe first second = true ↔ ¬ second < first := by
  simp [placeLe]

theorem placeLe_trans (first second third : List String) (hfirst : placeLe first second = true)
    (hsecond : placeLe second third = true) : placeLe first third = true := by
  rw [placeLe_eq_true_iff, List.not_lt] at *
  exact List.le_trans hfirst hsecond

theorem placeLe_total (first second : List String) :
    (placeLe first second || placeLe second first) = true := by
  rw [Bool.or_eq_true, placeLe_eq_true_iff, placeLe_eq_true_iff, List.not_lt, List.not_lt]
  exact List.le_total first second

/-- Sorted places are in order. -/
theorem pairwise_mergeSort_placeLe (files : List (List String)) :
    (files.mergeSort placeLe).Pairwise fun first second => ¬ second < first :=
  (List.pairwise_mergeSort placeLe_trans placeLe_total files).imp placeLe_eq_true_iff.mp

/-- The order in which places are found does not matter once they are sorted. -/
theorem mergeSort_placeLe_eq_of_perm {others : List (List String)} (hperm : files.Perm others) :
    files.mergeSort placeLe = others.mergeSort placeLe := by
  refine List.Perm.eq_of_pairwise ?_ (pairwise_mergeSort_placeLe files)
    (pairwise_mergeSort_placeLe others)
    ((List.mergeSort_perm _ _).trans (hperm.trans (List.mergeSort_perm _ _).symm))
  intro first second _ _ hfirst hsecond
  exact List.le_antisymm (List.not_lt.mp hfirst) (List.not_lt.mp hsecond)

/-- Sorted names that are distinct are in the order of their bytes. -/
theorem pairwise_bytes_mergeSort {names : List String} (hnodup : names.Nodup) :
    (names.mergeSort fun first second => !decide (second < first)).Pairwise fun first second =>
      Text.bytes first < Text.bytes second := by
  have hsorted : (names.mergeSort fun first second => !decide (second < first)).Pairwise
      fun first second => !decide (second < first) := by
    refine List.pairwise_mergeSort (fun first second third hfirst hsecond => ?_)
      (fun first second => ?_) names
    · simp only [Bool.not_eq_true', decide_eq_false_iff_not, String.not_lt] at hfirst hsecond ⊢
      exact String.le_trans hfirst hsecond
    · simp only [Bool.or_eq_true, Bool.not_eq_true', decide_eq_false_iff_not, String.not_lt]
      exact String.le_total first second
  have hdistinct := (List.mergeSort_perm names
    fun first second => !decide (second < first)).nodup_iff.mpr hnodup
  refine hsorted.imp₂ (fun first second hle hne => ?_) hdistinct
  simp only [Bool.not_eq_true', decide_eq_false_iff_not, String.not_lt] at hle
  exact Text.bytes_lt_bytes_iff.mpr (Std.lt_of_le_of_ne hle hne)

example : placeLe ["b", "x.ts"] ["b.ts", "x.ts"] = true ∧ "b.ts/x.ts" < "b/x.ts" := by decide

/-! ## Copying -/

/-- The copy of a file below a directory: its own name and its text. -/
def copy? (tree : FileTree) (place relative : List String) : Option (String × String) :=
  match relative.getLast?, tree.node? (place ++ relative) with
  | some name, some (.file content) => some (name, content)
  | _, _ => none

theorem copy?_eq_some_iff : tree.copy? place relative = some (name, content) ↔
    (∃ folder, relative = folder ++ [name]) ∧
      tree.node? (place ++ relative) = some (.file content) := by
  rw [← List.getLast?_eq_some_iff]
  unfold copy?
  split
  next hlast hnode => simp [hlast, hnode]
  next hnot =>
    refine ⟨nofun, ?_⟩
    rintro ⟨hlast, hnode⟩
    exact absurd hnode (hnot _ _ hlast)

/-- The copies of files, in order. -/
def copies (tree : FileTree) (place : List String) (files : List (List String)) :
    List (String × String) :=
  files.filterMap (tree.copy? place)

/-- What a directory takes does not lie in another one, if the first does not lie there. -/
theorem Takes.not_below (htakes : tree.Takes place name) {directory : List String}
    (hdirectory : tree.node? directory = some .directory) (houtside : ¬ directory <+: place) :
    ¬ directory <+: enter place name := by
  intro hbelow
  by_cases hproper : Path.IsProper name
  · rw [Path.enter_of_isProper hproper, List.prefix_concat_iff,
      ← Path.enter_of_isProper hproper] at hbelow
    rcases hbelow with heq | hbelow
    · exact htakes.2 (heq ▸ hdirectory)
    · exact houtside hbelow
  · exact houtside (hbelow.trans (Path.enter_prefix_of_not_isProper hproper place))

/-- Whether files can be copied from below one directory into another that lies outside of it. -/
structure IsReady (tree : FileTree) (source target : Path) : Prop where
  isTree : tree.IsTree
  readable : tree.HasDirectory source
  writable : tree.HasDirectory target
  outside : ¬ source.place <+: target.place

section

variable {done : List (String × String)} (hready : tree.IsReady source target)
  (hdone : ∀ copy ∈ done, tree.Takes target.place copy.1)

include hready hdone

/-- Copies leave everything below the first directory as it is. -/
theorem IsReady.node?_putAll (hbelow : source.place <+: place) :
    (tree.putAll target.place done).node? place = tree.node? place := by
  refine node?_putAll_of_ne hdone fun copy hmem heq => ?_
  exact (hdone copy hmem).not_below hready.readable.2 hready.outside (heq ▸ hbelow)

theorem IsReady.read_eq_ok (hfile : tree.node? (source.place ++ relative) = some (.file content)) :
    (tree.putAll target.place done).read { source with below := source.below ++ relative } =
      .ok content := by
  have hsame := sameDirectories_putAll hdone
  have hwalk := hsame.walk (hready.isTree.walk_eq_ok (by rw [hfile]; nofun))
  have hnode := hready.node?_putAll hdone (List.prefix_append source.place relative)
  rw [hfile] at hnode
  rw [read, (hsame.hasDirectory hready.readable).locate_below, hwalk]
  simp only [bind, Except.bind, hnode]
  rfl

/-- One file after the other is copied as it was before the first; a name that comes again is not
counted again. -/
theorem IsReady.copyAll_eq (hfiles : ∀ relative ∈ files, ∃ name content,
      tree.copy? source.place relative = some (name, content) ∧ tree.Takes target.place name) :
    copyAll source target (done.map Prod.fst).eraseDups files (tree.putAll target.place done) =
      (.ok ((done ++ tree.copies source.place files).map Prod.fst).eraseDups,
        tree.putAll target.place (done ++ tree.copies source.place files)) := by
  -- The invariant is that the tree is the first one after the copies that were made so far. They
  -- lie outside of the directory that is read, so each file still has its first text.
  induction files generalizing done with
  | nil => simp [copyAll, copies]
  | cons relative files ih =>
      obtain ⟨⟨name, content, hcopy, htakes⟩, hrest⟩ := List.forall_mem_cons.mp hfiles
      obtain ⟨⟨folder, rfl⟩, hfile⟩ := copy?_eq_some_iff.mp hcopy
      have hsame := sameDirectories_putAll hdone
      have hread := hready.read_eq_ok hdone hfile
      have hwrite := (hsame.hasDirectory hready.writable).write_of_takes
        (hsame.takes_iff.mpr htakes) content
      have hmore : ∀ copy ∈ done ++ [(name, content)], tree.Takes target.place copy.1 := by
        intro copy hmem
        rcases List.mem_append.mp hmem with hmem | hmem
        · exact hdone copy hmem
        · obtain rfl := List.mem_singleton.mp hmem
          exact htakes
      have hnext := ih hmore hrest
      rw [putAll_append, putAll, putAll, List.map_append, List.map_singleton, eraseDups_concat]
        at hnext
      have hcopies : tree.copies source.place ((folder ++ [name]) :: files) =
          (name, content) :: tree.copies source.place files := List.filterMap_cons_some hcopy
      rw [hcopies]
      simp only [copyAll, List.getLast?_concat, hread, hwrite, bind, Except.bind]
      simpa only [List.contains_iff_mem, List.mem_eraseDups, List.append_assoc,
        List.singleton_append] using hnext

end

/-- What copying files leaves, and which names it answers. -/
theorem IsReady.flattenFiles_eq (hready : tree.IsReady source target)
    (hfiles : ∀ relative ∈ files, ∃ name content,
      tree.copy? source.place relative = some (name, content) ∧ tree.Takes target.place name) :
    tree.flattenFiles source target files =
      (.ok (((tree.copies source.place (files.mergeSort placeLe)).map Prod.fst).eraseDups.mergeSort
          fun first second => !decide (second < first)),
        tree.putAll target.place (tree.copies source.place (files.mergeSort placeLe))) := by
  have hcopied : copyAll source target [] (files.mergeSort placeLe) tree =
      (.ok ((tree.copies source.place (files.mergeSort placeLe)).map Prod.fst).eraseDups,
        tree.putAll target.place (tree.copies source.place (files.mergeSort placeLe))) :=
    hready.copyAll_eq (List.forall_mem_nil _) fun relative hmem =>
      hfiles relative (List.mem_mergeSort.mp hmem)
  rw [flattenFiles, hcopied]
  rfl

theorem flattenFiles_eq_of_perm {others : List (List String)} (hperm : files.Perm others) :
    tree.flattenFiles source target files = tree.flattenFiles source target others := by
  rw [flattenFiles, flattenFiles, mergeSort_placeLe_eq_of_perm hperm]

/-- Of sorted places that end with a name, the last one is the greatest. -/
theorem exists_greatest {name : String}
    (hsorted : files.Pairwise fun first second => ¬ second < first)
    (hsome : ∃ folder, folder ++ [name] ∈ files) :
    ∃ front folder back, files = front ++ (folder ++ [name]) :: back ∧
      (∀ relative ∈ back, ¬ ∃ other, relative = other ++ [name]) ∧
      ∀ other, other ++ [name] ∈ files → ¬ folder ++ [name] < other ++ [name] := by
  obtain ⟨folder, hfolder⟩ := hsome
  obtain ⟨front, _, back, rfl, ⟨folder, rfl⟩, hlast⟩ :=
    exists_last (fun relative => ∃ folder, relative = folder ++ [name]) ⟨_, hfolder, folder, rfl⟩
  -- Those in front are not greater because places are sorted, and none behind has the name.
  refine ⟨front, folder, back, rfl, hlast, fun other hmem => ?_⟩
  rcases List.mem_append.mp hmem with hfront | hmem
  · exact (List.pairwise_append.mp hsorted).2.2 _ hfront _ List.mem_cons_self
  · rcases List.mem_cons.mp hmem with heq | hback
    · exact heq ▸ List.lt_irrefl _
    · exact absurd ⟨other, rfl⟩ (hlast _ hback)

/-! ## Flattening -/

/-- Whether the files below a directory can be flattened into another one: this one lies outside of
the first, it stands or can be made, and no directory stands at the place of a copy. -/
structure CanFlatten (tree : FileTree) (source target : Path) : Prop where
  isTree : tree.IsTree
  hasSource : tree.HasDirectory source
  isClear : tree.IsClear target
  outside : ¬ source.place <+: target.place
  free : ∀ folder name content, tree.HasFile source.place (folder ++ [name]) content →
    (tree.made target).node? (target.place ++ [name]) ≠ some .directory

/-- Whether the files below a directory were flattened into another one: the answer is their names,
each once and in the order of their bytes; each name has the text of the file with the greatest
place of those with the name, where places are compared name by name; everything else is as before,
and so is all that stands below the first directory, unless a directory was missing there on the way
to the other one. -/
structure IsFlattened (tree after : FileTree) (source target : Path) (written : List String) :
    Prop where
  mem_iff : ∀ name, name ∈ written ↔
    ∃ folder content, tree.HasFile source.place (folder ++ [name]) content
  sorted : written.Pairwise fun first second => Text.bytes first < Text.bytes second
  greatest : ∀ name ∈ written, ∃ folder content,
    tree.HasFile source.place (folder ++ [name]) content ∧
    (∀ other text, tree.HasFile source.place (other ++ [name]) text →
      ¬ (folder ++ [name]).map Text.bytes < (other ++ [name]).map Text.bytes) ∧
    after.at? (target.child name) = some (.file content)
  others : ∀ place, (∀ name ∈ written, place ≠ (target.child name).place) →
    after.node? place = tree.node? place ∨ tree.node? place = none ∧
      after.node? place = some .directory ∧ place ∈ target.way
  source_eq : ∀ place, source.place <+: place →
    (place ∈ target.way → tree.node? place ≠ none) → after.node? place = tree.node? place

/-- The copies that flattening makes, in order. -/
def flatCopies (tree : FileTree) (source target : Path) : List (String × String) :=
  (tree.made target).copies source.place
    (((tree.made target).filesBelow source.place).mergeSort placeLe)

namespace CanFlatten

theorem isReady (hcan : tree.CanFlatten source target) :
    (tree.made target).IsReady source target where
  isTree := hcan.isTree.made target
  readable := (growsAt_made tree target).hasDirectory hcan.hasSource
  writable := hasDirectory_made hcan.isClear
  outside := hcan.outside

/-- Making the other directory makes no files. -/
theorem mem_filesBelow_iff (hcan : tree.CanFlatten source target) :
    relative ∈ (tree.made target).filesBelow source.place ↔
      ∃ content, tree.HasFile source.place relative content := by
  rw [hcan.isReady.isTree.mem_filesBelow_iff hcan.isReady.readable.2]
  simp only [HasFile, (growsAt_made tree target).node?_file_iff]

/-- The name of a file below the directory is that of something in the other one, too. -/
theorem form_of_hasFile (hcan : tree.CanFlatten source target) {folder : List String}
    (hfile : tree.HasFile source.place (folder ++ [name]) content) :
    IsFileName name ∧ Path.IsProper name := by
  have hnode := hfile.2
  rw [← List.append_assoc] at hnode
  exact hcan.isTree.form _ _ (by rw [hnode]; nofun)

theorem copy?_of_hasFile (hcan : tree.CanFlatten source target) {folder : List String}
    (hfile : tree.HasFile source.place (folder ++ [name]) content) :
    (tree.made target).copy? source.place (folder ++ [name]) = some (name, content) ∧
      (tree.made target).Takes target.place name := by
  have hnode := (growsAt_made tree target).node?_of_some hfile.2
  obtain ⟨hform, hproper⟩ := hcan.form_of_hasFile hfile
  refine ⟨copy?_eq_some_iff.mpr ⟨⟨folder, rfl⟩, hnode⟩, hform, ?_⟩
  rw [Path.enter_of_isProper hproper]
  exact hcan.free folder name content hfile

theorem exists_copy?_of_mem (hcan : tree.CanFlatten source target)
    (hmem : relative ∈ (tree.made target).filesBelow source.place) : ∃ name content,
      (tree.made target).copy? source.place relative = some (name, content) ∧
        (tree.made target).Takes target.place name := by
  obtain ⟨content, hfile⟩ := hcan.mem_filesBelow_iff.mp hmem
  rcases List.eq_nil_or_concat' relative with rfl | ⟨folder, name, rfl⟩
  · have hnode := hfile.2
    rw [List.append_nil, hcan.hasSource.2] at hnode
    cases hnode
  · exact ⟨name, content, hcan.copy?_of_hasFile hfile⟩

theorem mem_map_fst_flatCopies (hcan : tree.CanFlatten source target) :
    name ∈ (tree.flatCopies source target).map Prod.fst ↔
      ∃ folder content, tree.HasFile source.place (folder ++ [name]) content := by
  simp only [flatCopies, copies, List.mem_map, List.mem_filterMap, List.mem_mergeSort]
  constructor
  · rintro ⟨⟨_, content⟩, ⟨relative, hmem, hcopy⟩, rfl⟩
    obtain ⟨⟨folder, rfl⟩, _⟩ := copy?_eq_some_iff.mp hcopy
    exact ⟨folder, hcan.mem_filesBelow_iff.mp hmem⟩
  · rintro ⟨folder, content, hfile⟩
    exact ⟨(name, content), ⟨folder ++ [name], hcan.mem_filesBelow_iff.mpr ⟨content, hfile⟩,
      (hcan.copy?_of_hasFile hfile).1⟩, rfl⟩

theorem takes_of_mem_flatCopies (hcan : tree.CanFlatten source target) {copy : String × String}
    (hmem : copy ∈ tree.flatCopies source target) :
    (tree.made target).Takes target.place copy.1 := by
  obtain ⟨relative, hfile, hcopy⟩ := List.mem_filterMap.mp hmem
  obtain ⟨name, content, hsome, htakes⟩ :=
    hcan.exists_copy?_of_mem (List.mem_mergeSort.mp hfile)
  rw [hcopy] at hsome
  cases hsome
  exact htakes

/-- Of files with one name the greatest is the last that is copied. -/
theorem exists_greatest_copy (hcan : tree.CanFlatten source target)
    (hmem : name ∈ (tree.flatCopies source target).map Prod.fst) :
    ∃ folder content, tree.HasFile source.place (folder ++ [name]) content ∧
      (∀ other text, tree.HasFile source.place (other ++ [name]) text →
        ¬ folder ++ [name] < other ++ [name]) ∧
      ∃ front back, tree.flatCopies source target = front ++ (name, content) :: back ∧
        ∀ copy ∈ back, copy.1 ≠ name := by
  obtain ⟨folder, content, hfile⟩ := hcan.mem_map_fst_flatCopies.mp hmem
  have hfound : ∀ {folder content}, tree.HasFile source.place (folder ++ [name]) content →
      folder ++ [name] ∈ ((tree.made target).filesBelow source.place).mergeSort placeLe :=
    fun hfile => List.mem_mergeSort.mpr (hcan.mem_filesBelow_iff.mpr ⟨_, hfile⟩)
  -- Files are copied in the order of their places, so the last of a name is its greatest.
  obtain ⟨front, folder, back, hsplit, hlast, hgreatest⟩ :=
    exists_greatest (pairwise_mergeSort_placeLe _) ⟨folder, hfound hfile⟩
  have hthere : folder ++ [name] ∈
      ((tree.made target).filesBelow source.place).mergeSort placeLe := by
    rw [hsplit]
    exact List.mem_append_right _ List.mem_cons_self
  obtain ⟨content, hfile⟩ := hcan.mem_filesBelow_iff.mp (List.mem_mergeSort.mp hthere)
  refine ⟨folder, content, hfile, fun other text hother => hgreatest other (hfound hother),
    (tree.made target).copies source.place front, (tree.made target).copies source.place back,
    ?_, ?_⟩
  · rw [flatCopies, hsplit, copies, List.filterMap_append,
      List.filterMap_cons_some (hcan.copy?_of_hasFile hfile).1, copies, copies]
  · rintro ⟨_, text⟩ hcopied rfl
    obtain ⟨relative, hback, hcopy⟩ := List.mem_filterMap.mp hcopied
    exact hlast relative hback (copy?_eq_some_iff.mp hcopy).1

theorem isFlattened (hcan : tree.CanFlatten source target) : tree.IsFlattened
    ((tree.made target).putAll target.place (tree.flatCopies source target)) source target
    (((tree.flatCopies source target).map Prod.fst).eraseDups.mergeSort
      fun first second => !decide (second < first)) := by
  have hready := hcan.isReady
  have htakes : ∀ copy ∈ tree.flatCopies source target,
      (tree.made target).Takes target.place copy.1 := fun _ => hcan.takes_of_mem_flatCopies
  have hwritten : ∀ {name}, name ∈ ((tree.flatCopies source target).map
      Prod.fst).eraseDups.mergeSort (fun first second => !decide (second < first)) ↔
      name ∈ (tree.flatCopies source target).map Prod.fst := by
    simp
  refine
    { mem_iff := fun name => hwritten.trans hcan.mem_map_fst_flatCopies
      sorted := pairwise_bytes_mergeSort (nodup_eraseDups _)
      greatest := fun name hmem => ?_
      others := fun place hplace => ?_
      source_eq := fun place hbelow hway => ?_ }
  · obtain ⟨folder, content, hfile, hgreatest, front, back, hsplit, hlast⟩ :=
      hcan.exists_greatest_copy (hwritten.mp hmem)
    refine ⟨folder, content, hfile, fun other text hother => ?_, ?_⟩
    · rw [Text.map_bytes_lt_map_bytes_iff]
      exact hgreatest other text hother
    · obtain ⟨hform, hproper⟩ := hcan.form_of_hasFile hfile
      have hnames : ∀ copy ∈ tree.flatCopies source target, Path.IsProper copy.1 := by
        intro copy hcopy
        obtain ⟨other, text, hother⟩ :=
          hcan.mem_map_fst_flatCopies.mp (List.mem_map_of_mem hcopy)
        exact (hcan.form_of_hasFile hother).2
      have hafter := (sameDirectories_putAll htakes).hasDirectory hready.writable
      rw [hafter.at?_child_of_isProper hform hproper]
      -- What is copied later has other names and leaves this one alone.
      rw [hsplit] at htakes hnames ⊢
      exact node?_putAll_of_last htakes hnames hlast
  · rw [node?_putAll_of_ne htakes fun copy hmem => ?_]
    · exact growsAt_made tree target place
    · simpa using hplace copy.1 (hwritten.mpr (List.mem_map_of_mem hmem))
  · rw [hready.node?_putAll htakes hbelow]
    rcases growsAt_made tree target place with hsame | ⟨hnone, _, hmem⟩
    · exact hsame
    · exact absurd hnone (hway hmem)

end CanFlatten

/-- Flattening comes to a good end: each name has the text of the greatest file of that name. In
whichever order directories are listed, the files that a walk finds are flattened like this. -/
theorem flattenInto_eq_ok (hcan : tree.CanFlatten source target) : ∃ written after,
    tree.flattenInto source target = (.ok written, after) ∧
    tree.IsFlattened after source target written ∧
    ∀ listing, (tree.made target).Lists source.place listing →
      (∃ files, (tree.made target).Collects source.place listing [] (listing []) files) ∧
      ∀ files, (tree.made target).Collects source.place listing [] (listing []) files →
        (tree.made target).flattenFiles source target files = (.ok written, after) := by
  have hready := hcan.isReady
  have hflattened := hready.flattenFiles_eq fun relative => hcan.exists_copy?_of_mem
  refine ⟨_, _, ?_, hcan.isFlattened, fun listing hlists => ⟨exists_collects hlists,
    fun files hwalk => ?_⟩⟩
  · unfold flattenInto
    rw [makeDirectories_of_isClear hcan.isClear]
    dsimp only
    rw [hready.readable.1]
    dsimp only
    rw [checkDirectory_eq_ok_iff.mpr hready.readable.2]
    exact hflattened
  · rw [flattenFiles_eq_of_perm
      (hwalk.perm_filesBelow hready.isTree hready.readable.2 hlists)]
    exact hflattened

/-- Two directories below `src` have a file of one name. The last one of the directories counts,
although its path is less if slashes are compared with other characters. -/
theorem flattenInto_sameNames :
    let tree : FileTree := ⟨[(["src"], .directory), (["src", "b"], .directory),
      (["src", "b", "x.ts"], .file "first"), (["src", "b.ts"], .directory),
      (["src", "b.ts", "x.ts"], .file "second"), (["src", ".git"], .directory),
      (["src", ".git", "config"], .file "hidden")]⟩
    let source := Path.ofText "src"
    let target := Path.ofText "dest"
    tree.CanFlatten source target ∧ ∃ written after,
      tree.flattenInto source target = (.ok written, after) ∧
      tree.IsFlattened after source target written ∧
      (∀ listing, (tree.made target).Lists source.place listing →
        (∃ files, (tree.made target).Collects source.place listing [] (listing []) files) ∧
        ∀ files, (tree.made target).Collects source.place listing [] (listing []) files →
          (tree.made target).flattenFiles source target files = (.ok written, after)) ∧
      after.at? (target.child "x.ts") = some (.file "second") := by
  intro tree source target
  have htree : tree.IsTree := by decide +kernel
  have hsource : tree.HasDirectory source :=
    ⟨walk_eq_ok_iff.mpr ⟨by decide +kernel, by decide +kernel, rfl⟩, by decide +kernel⟩
  have hfree : ∀ relative ∈ tree.filesBelow source.place, ∀ name ∈ relative.getLast?,
      (tree.made target).node? (target.place ++ [name]) ≠ some .directory := by decide +kernel
  have hcan : tree.CanFlatten source target :=
    { isTree := htree
      hasSource := hsource
      isClear := makeDirectories_eq_ok_iff.mp (by decide +kernel)
      outside := by decide +kernel
      free := fun folder name content hfile =>
        hfree _ ((htree.mem_filesBelow_iff hsource.2).mpr ⟨content, hfile⟩) name (by simp) }
  obtain ⟨written, after, hrun, hflattened, hwalks⟩ := flattenInto_eq_ok hcan
  refine ⟨hcan, written, after, hrun, hflattened, hwalks, ?_⟩
  have hsecond : tree.HasFile source.place (["b.ts"] ++ ["x.ts"]) "second" := by
    constructor <;> decide +kernel
  obtain ⟨folder, content, hfile, hgreatest, hread⟩ :=
    hflattened.greatest "x.ts" ((hflattened.mem_iff "x.ts").mpr ⟨_, _, hsecond⟩)
  have hfiles : tree.filesBelow source.place = [["b", "x.ts"], ["b.ts", "x.ts"]] := by
    decide +kernel
  have hmem := (htree.mem_filesBelow_iff hsource.2).mpr ⟨content, hfile⟩
  rw [hfiles, List.mem_cons, List.mem_singleton] at hmem
  rcases hmem with heq | heq
  · rw [heq] at hgreatest
    exact absurd (by decide +kernel) (hgreatest _ _ hsecond)
  · have hcontent : tree.node? (source.place ++ ["b.ts", "x.ts"]) = some (.file content) :=
      heq ▸ hfile.2
    cases hsecond.2.symm.trans hcontent
    exact hread

end EntityModel.FileTree
