import EntityModel.Proofs.Conversion.Emission
import EntityModel.Proofs.File.Writing
import EntityModel.Proofs.Text.ByteOrder

/-!
# Outputs in their directory

What writing a conversion leaves: every output should stand under its name with its text, and the
entity model beside them. Only an output that has the name of the entity model is lost
(`isWritten_iff`). A batch of accepted names should be written as a whole, which fails for names
that no file can have (`accepted_iff_and_run_write`).
-/

namespace EntityModel.Output

open FileTree
open EntityModel.Path (enter)

variable {tree after : FileTree} {directory : Path} {conversion : Conversion} {withModel : Bool}
  {name : String} {written : List String}

/-! ## Names that are accepted and taken -/

theorem map_fst_files (conversion : Conversion) (withModel : Bool) :
    (files conversion withModel).map Prod.fst =
      conversion.outputs.keys ++ if withModel then [modelFile] else [] := by
  cases withModel <;> simp [files, SortedMap.keys]

/-- What holds of the names of outputs and of that of the entity model holds of all files. -/
theorem forall_mem_files {holds : String → Prop}
    (hkeys : ∀ name ∈ conversion.outputs.keys, holds name) (hmodel : holds modelFile)
    {file : String × String} (hmem : file ∈ files conversion withModel) : holds file.1 := by
  have hname : file.1 ∈ (files conversion withModel).map Prod.fst := List.mem_map_of_mem hmem
  rw [map_fst_files, List.mem_append] at hname
  rcases hname with hkey | hname
  · exact hkeys _ hkey
  · split at hname
    · exact List.mem_singleton.mp hname ▸ hmodel
    · cases hname

theorem nameFault?_of_mem_files
    (hnames : ∀ name ∈ conversion.outputs.keys, nameFault? name = none)
    {file : String × String} (hmem : file ∈ files conversion withModel) :
    nameFault? file.1 = none :=
  forall_mem_files hnames (by decide +kernel) hmem

theorem isProper_of_nameFault? (hname : nameFault? name = none) (hpoint : name ≠ ".") :
    Path.IsProper name := by
  obtain ⟨⟨char, hmem, _⟩, _, _, hparent⟩ := nameFault?_eq_none_iff_forall.mp hname
  refine ⟨?_, hpoint, ?_⟩
  · rintro rfl
    cases hmem
  · rintro rfl
    exact hparent rfl

/-- A file whose name is accepted and taken stands in the directory. -/
theorem isProper_of_takes {place : List String} (hplace : tree.node? place = some .directory)
    (hname : nameFault? name = none) (htakes : tree.Takes place name) : Path.IsProper name := by
  refine isProper_of_nameFault? hname ?_
  rintro rfl
  exact htakes.2 hplace

/-! ## Every output under its name -/

/-- Whether a conversion was written as it should be: the files have names of their own, those of
outputs in the order of their bytes; each output and the entity model can be read under its name;
and everything else is as before, but for directories that were missing on the way. -/
structure IsWritten (tree after : FileTree) (directory : Path) (conversion : Conversion)
    (withModel : Bool) (written : List String) : Prop where
  nodup : (written.map directory.child).Nodup
  names_eq : written = conversion.outputs.keys ++ if withModel then [modelFile] else []
  sorted : conversion.outputs.keys.Pairwise fun first second =>
    Text.bytes first < Text.bytes second
  outputs : ∀ name text, (name, text) ∈ conversion.outputs.entries →
    after.at? (directory.child name) = some (.file text)
  model : withModel = true → after.at? (directory.child modelFile) =
    some (.file (modelText conversion.entities))
  others : ∀ place, (∀ name ∈ written, place ≠ (directory.child name).place) →
    after.node? place = tree.node? place ∨ tree.node? place = none ∧
      after.node? place = some .directory ∧ place ∈ directory.way

theorem child_injective (directory : Path) : Function.Injective directory.child := by
  intro first second heq
  have hbelow := congrArg Path.below heq
  simpa [Path.child] using hbelow

theorem pairwise_bytes_keys (outputs : SortedMap String) :
    outputs.keys.Pairwise fun first second => Text.bytes first < Text.bytes second := by
  rw [SortedMap.keys, List.pairwise_map]
  exact outputs.sorted.imp Text.bytes_lt_bytes_iff.mpr

theorem IsWritten.not_clash
    (hwritten : IsWritten tree after directory conversion withModel written) :
    ¬ (withModel = true ∧ modelFile ∈ conversion.outputs.keys) := by
  rintro ⟨rfl, hmem⟩
  have hnodup := hwritten.nodup.of_map
  rw [hwritten.names_eq, if_pos rfl, List.nodup_append] at hnodup
  exact hnodup.2.2 modelFile hmem modelFile (List.mem_singleton_self _) rfl

theorem nodup_names (hclash : ¬ (withModel = true ∧ modelFile ∈ conversion.outputs.keys)) :
    ((files conversion withModel).map Prod.fst).Nodup := by
  rw [map_fst_files, List.nodup_append]
  refine ⟨conversion.outputs.nodup_keys, by cases withModel <;> simp, ?_⟩
  rintro name hkey _ hmodel rfl
  split at hmodel
  next hmodelWanted =>
    rw [List.mem_singleton.mp hmodel] at hkey
    exact hclash ⟨hmodelWanted, hkey⟩
  next => cases hmodel

section

variable {listed front back : List (String × String)} {text : String}

/-- A file can be read under its name if none of the later ones has the name. -/
theorem at?_putAll_of_last (hdirectory : tree.HasDirectory directory)
    (hnames : ∀ file ∈ front ++ (name, text) :: back, nameFault? file.1 = none)
    (hfiles : ∀ file ∈ front ++ (name, text) :: back, tree.Takes directory.place file.1)
    (hlast : name ∉ back.map Prod.fst) :
    (tree.putAll directory.place (front ++ (name, text) :: back)).at? (directory.child name) =
      some (.file text) := by
  have hproper : ∀ file ∈ front ++ (name, text) :: back, Path.IsProper file.1 := fun file hmem =>
    isProper_of_takes hdirectory.2 (hnames file hmem) (hfiles file hmem)
  have hmem : (name, text) ∈ front ++ (name, text) :: back :=
    List.mem_append_right _ List.mem_cons_self
  have hafter := (sameDirectories_putAll hfiles).hasDirectory hdirectory
  rw [hafter.at?_child_of_isProper (hfiles _ hmem).1 (hproper _ hmem)]
  refine node?_putAll_of_last hfiles hproper ?_
  rintro file hback rfl
  exact hlast (List.mem_map_of_mem hback)

end

/-- Outputs whose names stay apart from that of the entity model are all written as they should
be. -/
theorem isWritten_of_run_write
    (hrun : tree.run (write directory conversion withModel) = (.ok written, after))
    (hclash : ¬ (withModel = true ∧ modelFile ∈ conversion.outputs.keys)) :
    IsWritten tree after directory conversion withModel written := by
  obtain ⟨hkeys, hclear, hfiles, rfl, rfl⟩ := run_write_eq_ok_iff.mp hrun
  have hdirectory := hasDirectory_made hclear
  have hnames : ∀ file ∈ files conversion withModel, nameFault? file.1 = none := fun file =>
    nameFault?_of_mem_files hkeys
  have hnodup := nodup_names hclash
  have hread : ∀ name text, (name, text) ∈ files conversion withModel →
      ((tree.made directory).putAll directory.place (files conversion withModel)).at?
        (directory.child name) = some (.file text) := by
    intro name text hmem
    obtain ⟨front, back, hsplit⟩ := List.append_of_mem hmem
    rw [hsplit] at hnames hfiles hnodup ⊢
    refine at?_putAll_of_last hdirectory hnames hfiles ?_
    rw [List.map_append, List.map_cons] at hnodup
    exact (List.nodup_cons.mp (List.nodup_append.mp hnodup).2.1).1
  refine
    { nodup := hnodup.map (child_injective directory)
      names_eq := map_fst_files conversion withModel
      sorted := pairwise_bytes_keys conversion.outputs
      outputs := fun name text hmem => hread name text (List.mem_append_left _ hmem)
      model := fun hmodel => hread _ _ (List.mem_append_right _ (by simp [hmodel]))
      others := fun place hplace => ?_ }
  have hother : ∀ file ∈ files conversion withModel, place ≠ enter directory.place file.1 :=
    fun file hmem => by simpa using hplace file.1 (List.mem_map_of_mem hmem)
  rw [node?_putAll_of_ne hfiles hother]
  exact growsAt_made tree directory place

/-- A conversion is written as it should be exactly if the entity model is not wanted beside an
output of its name. -/
theorem isWritten_iff
    (hrun : tree.run (write directory conversion withModel) = (.ok written, after)) :
    IsWritten tree after directory conversion withModel written ↔
      ¬ (withModel = true ∧ modelFile ∈ conversion.outputs.keys) :=
  ⟨IsWritten.not_clash, isWritten_of_run_write hrun⟩

/-- An older output and another file stand in the directory. -/
theorem isWritten_overOlderOutput :
    let tree : FileTree := ⟨[(["out"], .directory), (["out", "users.js"], .file "older"),
      (["out", "notes.txt"], .file "notes")]⟩
    let conversion : Conversion := ⟨SortedMap.ofList [("users.js", "new")], []⟩
    ∃ written after, tree.run (write (.ofText "out") conversion true) = (.ok written, after) ∧
      ¬ (true = true ∧ modelFile ∈ conversion.outputs.keys) ∧
      IsWritten tree after (.ofText "out") conversion true written := by
  intro tree conversion
  have hclear : tree.IsClear (.ofText "out") := makeDirectories_eq_ok_iff.mp (by decide +kernel)
  have hrun : tree.run (write (.ofText "out") conversion true) = _ :=
    run_write (by decide +kernel) hclear (by decide +kernel)
  have hclash : ¬ (true = true ∧ modelFile ∈ conversion.outputs.keys) := by decide +kernel
  exact ⟨_, _, hrun, hclash, (isWritten_iff hrun).mpr hclash⟩

/-- The output of one file has the name of the entity model, which takes its place. -/
theorem not_isWritten_modelNamedOutput :
    let models : SourceFile :=
      ⟨"entities.model.ts", "const users=pgTable(\"users\",\x7b\x7d);"⟩
    ∃ conversion written after,
      Conversion.ofFiles Syntax.parser ⟨Builders.usual, "json"⟩ [models] = .ok conversion ∧
      FileTree.empty.run (write (.ofText "out") conversion true) = (.ok written, after) ∧
      ¬ IsWritten FileTree.empty after (.ofText "out") conversion true written := by
  intro models
  obtain ⟨conversion, hconversion, hclash, hnames, hfiles⟩ : ∃ conversion,
      Conversion.ofFiles Syntax.parser ⟨Builders.usual, "json"⟩ [models] = .ok conversion ∧
        modelFile ∈ conversion.outputs.keys ∧
        (∀ name ∈ conversion.outputs.keys, nameFault? name = none) ∧
        ∀ file ∈ files conversion true,
          (FileTree.empty.made (.ofText "out")).Takes (Path.ofText "out").place file.1 :=
    Conversion.exists_ofFiles_of_any (by decide +kernel)
  have hclear : FileTree.empty.IsClear (.ofText "out") :=
    makeDirectories_eq_ok_iff.mp (by decide +kernel)
  exact ⟨conversion, _, _, hconversion, run_write hnames hclear hfiles,
    fun hwritten => hwritten.not_clash ⟨rfl, hclash⟩⟩

/-! ## Batches of accepted names -/

/-- Whether a file can have a name that is accepted: the name is not that of the directory itself,
and the system allows it. -/
def HasFileForm (name : String) : Prop := name ≠ "." ∧ IsFileName name

instance (name : String) : Decidable (HasFileForm name) := inferInstanceAs (Decidable (_ ∧ _))

/-- Whether nothing but the forms of their names keeps files from being written into a directory:
it stands or can be made, and no directory stands at their places. -/
structure IsOpenTo (tree : FileTree) (directory : Path) (names : List String) : Prop where
  isClear : tree.IsClear directory
  node?_ne : ∀ name ∈ names,
    (tree.made directory).node? (directory.place ++ [name]) ≠ some .directory

/-- Where nothing else stands in the way, the form of a name decides whether it is taken. -/
theorem takes_iff_hasFileForm {names : List String} (hopen : IsOpenTo tree directory names)
    (hmem : name ∈ names) (hname : nameFault? name = none) :
    (tree.made directory).Takes directory.place name ↔ HasFileForm name := by
  have hplace := (hasDirectory_made hopen.isClear).2
  constructor
  · intro htakes
    exact ⟨(isProper_of_takes hplace hname htakes).2.1, htakes.1⟩
  · rintro ⟨hpoint, hform⟩
    refine ⟨hform, ?_⟩
    rw [Path.enter_of_isProper (isProper_of_nameFault? hname hpoint)]
    exact hopen.node?_ne name hmem

/-- Which files are written is decided by the forms of their names, too. -/
theorem taken_eq_takeWhile {place : List String} {listed : List (String × String)}
    (hforms : ∀ file ∈ listed, tree.Takes place file.1 ↔ HasFileForm file.1) :
    taken tree place listed = listed.takeWhile fun file => HasFileForm file.1 := by
  induction listed with
  | nil => rfl
  | cons file listed ih =>
      obtain ⟨hfile, hforms⟩ := List.forall_mem_cons.mp hforms
      rw [taken, List.takeWhile_cons, List.takeWhile_cons, decide_eq_decide.mpr hfile, ← ih hforms,
        taken]

/-- The entity model stands behind the outputs, so it does not matter where one of them fails. -/
theorem takeWhile_files (hnot : ∃ name ∈ conversion.outputs.keys, ¬ HasFileForm name) :
    (files conversion withModel).takeWhile (fun file => HasFileForm file.1) =
      conversion.outputs.entries.takeWhile (fun file => HasFileForm file.1) := by
  rw [files, List.takeWhile_append, if_neg]
  intro hlength
  have hall := (List.takeWhile_prefix _).eq_of_length hlength
  obtain ⟨name, hmem, hname⟩ := hnot
  obtain ⟨entry, hentry, rfl⟩ := List.mem_map.mp hmem
  exact hname (of_decide_eq_true (List.takeWhile_eq_self_iff.mp hall entry hentry))

section

variable (hnames : ∀ name ∈ conversion.outputs.keys, nameFault? name = none)
  (hopen : IsOpenTo tree directory ((files conversion withModel).map Prod.fst))

include hnames hopen

theorem takes_file_iff {file : String × String} (hmem : file ∈ files conversion withModel) :
    (tree.made directory).Takes directory.place file.1 ↔ HasFileForm file.1 :=
  takes_iff_hasFileForm hopen (List.mem_map_of_mem hmem) (nameFault?_of_mem_files hnames hmem)

/-- A name that no file can have leaves the outputs before it behind. -/
theorem run_write_of_not_hasFileForm (hnot : ∃ name ∈ conversion.outputs.keys, ¬ HasFileForm name) :
    ∃ error, tree.run (write directory conversion withModel) =
      (.error (.file error), (tree.made directory).putAll directory.place
        (conversion.outputs.entries.takeWhile fun file => HasFileForm file.1)) := by
  have hfile : ∃ file ∈ files conversion withModel,
      ¬ (tree.made directory).Takes directory.place file.1 := by
    obtain ⟨name, hmem, hname⟩ := hnot
    obtain ⟨entry, hentry, rfl⟩ := List.mem_map.mp hmem
    have hfile : entry ∈ files conversion withModel := List.mem_append_left _ hentry
    exact ⟨entry, hfile, fun htakes => hname ((takes_file_iff hnames hopen hfile).mp htakes)⟩
  obtain ⟨error, hrun⟩ := run_write_of_not_takes hnames hopen.isClear hfile
  refine ⟨error, ?_⟩
  rw [hrun, taken_eq_takeWhile fun file => takes_file_iff hnames hopen, takeWhile_files hnot]

theorem exists_run_write_iff :
    (∃ written after, tree.run (write directory conversion withModel) = (.ok written, after)) ↔
      ∀ name ∈ conversion.outputs.keys, HasFileForm name := by
  constructor
  · rintro ⟨written, after, hrun⟩
    by_contra hnot
    push Not at hnot
    obtain ⟨error, herror⟩ := run_write_of_not_hasFileForm hnames hopen hnot
    rw [hrun] at herror
    cases herror
  · intro hforms
    have hmodel : HasFileForm modelFile := by decide +kernel
    exact ⟨_, _, run_write hnames hopen.isClear fun file hmem =>
      (takes_file_iff hnames hopen hmem).mpr (forall_mem_files hforms hmodel hmem)⟩

end

theorem not_isPlainName_point : ¬ IsPlainName "." := fun hplain => nomatch hplain.components_eq

/-- A name is accepted exactly if it is plain, unless it is a single point. Where nothing else
stands in the way, a batch of accepted names is written as a whole exactly if files can have all of
them; otherwise it fails with the outputs written that stand before the first of the other names. -/
theorem accepted_iff_and_run_write (name : String) (tree : FileTree) (directory : Path)
    (conversion : Conversion) (withModel : Bool) :
    ((nameFault? name = none ↔ IsPlainName name) ↔ name ≠ ".") ∧
    ((∀ name ∈ conversion.outputs.keys, nameFault? name = none) →
      IsOpenTo tree directory ((files conversion withModel).map Prod.fst) →
      ((∃ written after, tree.run (write directory conversion withModel) = (.ok written, after)) ↔
        ∀ name ∈ conversion.outputs.keys, HasFileForm name) ∧
      ((∃ name ∈ conversion.outputs.keys, ¬ HasFileForm name) →
        ∃ error, tree.run (write directory conversion withModel) =
          (.error (.file error), (tree.made directory).putAll directory.place
            (conversion.outputs.entries.takeWhile fun file => HasFileForm file.1)))) := by
  constructor
  · rw [nameFault?_eq_none_iff]
    constructor
    · rintro haccepted rfl
      exact not_isPlainName_point (haccepted.mp (Or.inr rfl))
    · exact fun hne => ⟨fun haccepted => haccepted.resolve_right hne, Or.inl⟩
  · intro hnames hopen
    exact ⟨exists_run_write_iff hnames hopen, run_write_of_not_hasFileForm hnames hopen⟩

/-- The second of three names is a point, so that only the first output is written. -/
theorem run_write_besidePoint :
    let conversion : Conversion :=
      ⟨SortedMap.ofList [("-a.js", "first"), (".", "second"), ("z.js", "third")], []⟩
    (∀ name ∈ conversion.outputs.keys, nameFault? name = none) ∧
    IsOpenTo FileTree.empty (.ofText "out") ((files conversion false).map Prod.fst) ∧
    (∃ name ∈ conversion.outputs.keys, ¬ HasFileForm name) ∧
    ∃ error, FileTree.empty.run (write (.ofText "out") conversion false) =
      (.error (.file error), (FileTree.empty.made (.ofText "out")).putAll ["out"]
        [("-a.js", "first")]) := by
  intro conversion
  have hnames : ∀ name ∈ conversion.outputs.keys, nameFault? name = none := by decide +kernel
  have hopen : IsOpenTo FileTree.empty (.ofText "out") ((files conversion false).map Prod.fst) :=
    ⟨makeDirectories_eq_ok_iff.mp (by decide +kernel), by decide +kernel⟩
  have hnot : ∃ name ∈ conversion.outputs.keys, ¬ HasFileForm name := by decide +kernel
  exact ⟨hnames, hopen, hnot,
    ((accepted_iff_and_run_write "." FileTree.empty (.ofText "out") conversion false).2 hnames
      hopen).2 hnot⟩

/-- A single point is accepted, although it leads to the directory itself. -/
theorem not_forall_accepted_iff_isPlainName :
    ¬ ∀ name, nameFault? name = none ↔ IsPlainName name := fun haccepted =>
  not_isPlainName_point ((haccepted ".").mp (by decide +kernel))

end EntityModel.Output
