import EntityModel.Proofs.CommandLine.Batch
import EntityModel.Proofs.File.Output
import Mathlib.Data.List.DropRight

/-!
# Source files and outputs

A run should leave the source files that it reads as they are. It gives one of them another text
exactly if its outputs go into the directory of the sources and one of them has the name of that
file (`run_keepsSource_iff`), which needs an extension that ends like those of source files.
-/

namespace EntityModel

open EntityModel.Path (enter)

namespace Output

open FileTree

variable {tree : FileTree} {directory : Path} {conversion : Conversion} {withModel : Bool}
  {name text : String}

/-- Of files in name order those are written up to which all are taken. -/
theorem mem_takeWhile_iff_of_sorted {entries : List (String × String)}
    (hsorted : entries.Pairwise fun first second => first.1 < second.1)
    {holds : String × String → Bool} {entry : String × String} :
    entry ∈ entries.takeWhile holds ↔
      entry ∈ entries ∧ ∀ other ∈ entries, other.1 ≤ entry.1 → holds other = true := by
  induction entries with
  | nil => simp
  | cons head entries ih =>
      obtain ⟨hhead, hsorted⟩ := List.pairwise_cons.mp hsorted
      rw [List.takeWhile_cons]
      cases hholds : holds head with
      | false =>
          -- The head is the least entry, so every entry would need it.
          refine ⟨nofun, fun hentry => ?_⟩
          have hle : head.1 ≤ entry.1 := by
            rcases List.mem_cons.mp hentry.1 with rfl | hmem
            · exact String.le_refl _
            · exact Std.le_of_lt (hhead entry hmem)
          rw [hentry.2 head List.mem_cons_self hle] at hholds
          cases hholds
      | true =>
          rw [if_pos rfl, List.mem_cons, ih hsorted, List.mem_cons, List.forall_mem_cons]
          constructor
          · rintro (rfl | ⟨hmem, hall⟩)
            · refine ⟨Or.inl rfl, fun _ => hholds, fun other hother hle => ?_⟩
              exact absurd (hhead other hother) (String.not_lt.mpr hle)
            · exact ⟨Or.inr hmem, fun _ => hholds, hall⟩
          · rintro ⟨rfl | hmem, _, hall⟩
            · exact Or.inl rfl
            · exact Or.inr ⟨hmem, hall⟩

/-- An output is written if all outputs up to it are taken. -/
theorem mem_taken_files_iff {place : List String} (hname : name ≠ modelFile) :
    (name, text) ∈ taken tree place (files conversion withModel) ↔
      (name, text) ∈ conversion.outputs.entries ∧
        ∀ other ∈ conversion.outputs.keys, other ≤ name → tree.Takes place other := by
  have hkeys : (∀ entry ∈ conversion.outputs.entries, entry.1 ≤ name →
      decide (tree.Takes place entry.1) = true) ↔
      ∀ other ∈ conversion.outputs.keys, other ≤ name → tree.Takes place other := by
    simp [SortedMap.keys]
  have hmodel : (name, text) ∉ (if withModel then [(modelFile, modelText conversion.entities)]
      else []).takeWhile fun file => tree.Takes place file.1 := by
    intro hmem
    have hmem := (List.takeWhile_prefix _).subset hmem
    split at hmem <;> simp [hname] at hmem
  rw [← hkeys, ← mem_takeWhile_iff_of_sorted conversion.outputs.sorted, taken, files,
    List.takeWhile_append]
  split
  next hlength =>
    rw [List.mem_append, (List.takeWhile_prefix _).eq_of_length hlength]
    exact or_iff_left hmodel
  next => rfl

/-- What writing accepted names leaves, whether it ends well or not. -/
theorem run_write_snd (hnames : ∀ name ∈ conversion.outputs.keys, nameFault? name = none)
    (hclear : tree.IsClear directory) :
    (tree.run (write directory conversion withModel)).2 =
      (tree.made directory).putAll directory.place
        (taken (tree.made directory) directory.place (files conversion withModel)) := by
  by_cases hfiles : ∀ file ∈ files conversion withModel,
      (tree.made directory).Takes directory.place file.1
  · rw [run_write hnames hclear hfiles, taken_eq_self hfiles]
  · push Not at hfiles
    obtain ⟨error, hrun⟩ := run_write_of_not_takes hnames hclear hfiles
    rw [hrun]

end Output

namespace CommandLine

theorem isProper_of_isSourceName {name : String} (hname : isSourceName name = true) :
    Path.IsProper name := by
  refine ⟨?_, ?_, ?_⟩ <;> rintro rfl <;> exact absurd hname (by decide +kernel)

/-- The entity model is no source file. -/
theorem ne_modelFile_of_isSourceName {name : String} (hname : isSourceName name = true) :
    name ≠ Output.modelFile := by
  rintro rfl
  exact absurd hname (by decide +kernel)

end CommandLine

namespace FileTree.HasSource

variable {tree : FileTree} {directory : Path} {file : SourceFile}
  (hsource : tree.HasSource directory file)

include hsource

theorem hasDirectory : tree.HasDirectory directory := by
  obtain ⟨names, hlist, _⟩ := hsource.listed
  exact hasDirectory_of_list hlist

theorem isFileName : IsFileName file.name :=
  hsource.hasDirectory.isFileName_of_at? (by rw [hsource.content_eq]; nofun)

/-- A source file stands at its own place in the directory. -/
theorem node?_eq :
    tree.node? (directory.place ++ [file.name]) = some (.file file.content) := by
  rw [← hsource.hasDirectory.at?_child_of_isProper hsource.isFileName
    (CommandLine.isProper_of_isSourceName hsource.isSourceName)]
  exact hsource.content_eq

end FileTree.HasSource

namespace CommandLine

open FileTree

variable {parser : TreeParser} {tree : FileTree} {settings : Settings} {file : SourceFile}

/-! ## What a run may overwrite -/

def Settings.input (settings : Settings) : Path := .ofText settings.inputDirectory

def Settings.output (settings : Settings) : Path := .ofText settings.outputDirectory

/-- Whether a run gives a source file the text of an output: the sources convert to outputs with
accepted names, their directory is that of the sources, and the output has the name of the file and
another text and can be written, with all outputs before it. -/
structure Overwrites (parser : TreeParser) (tree : FileTree) (settings : Settings)
    (conversion : Conversion) (file : SourceFile) (text : String) : Prop where
  converts : ∃ files, tree.sources settings.input = .ok files ∧
    Conversion.ofFiles parser settings.options files = .ok conversion
  accepted : ∀ name ∈ conversion.outputs.keys, Output.nameFault? name = none
  isClear : tree.IsClear settings.output
  place_eq : settings.output.place = settings.input.place
  mem_outputs : (file.name, text) ∈ conversion.outputs.entries
  text_ne : text ≠ file.content
  takes : ∀ name ∈ conversion.outputs.keys, name ≤ file.name →
    (tree.made settings.output).Takes settings.output.place name

section

variable {conversion : Conversion} {text : String}

/-- The files that a run writes, if names are accepted and the directory can be made. -/
def Settings.written (settings : Settings) (tree : FileTree) (conversion : Conversion) :
    List (String × String) :=
  Output.taken (tree.made settings.output) settings.output.place
    (Output.files conversion settings.withModel)

/-- The tree that a run leaves then. -/
def Settings.treeAfter (settings : Settings) (tree : FileTree) (conversion : Conversion) :
    FileTree :=
  (tree.made settings.output).putAll settings.output.place
    (settings.written tree conversion)

theorem takes_of_mem_written {entry : String × String}
    (hmem : entry ∈ settings.written tree conversion) :
    (tree.made settings.output).Takes settings.output.place entry.1 :=
  Output.takes_of_mem_taken hmem

theorem isProper_of_mem_written
    (hnames : ∀ name ∈ conversion.outputs.keys, Output.nameFault? name = none)
    (hclear : tree.IsClear settings.output) {entry : String × String}
    (hmem : entry ∈ settings.written tree conversion) : Path.IsProper entry.1 :=
  Output.isProper_of_takes (hasDirectory_made hclear).2
    (Output.nameFault?_of_mem_files hnames ((List.takeWhile_prefix _).subset hmem))
    (takes_of_mem_written hmem)

theorem mem_written_iff (hname : isSourceName file.name = true) :
    (file.name, text) ∈ settings.written tree conversion ↔
      (file.name, text) ∈ conversion.outputs.entries ∧
        ∀ name ∈ conversion.outputs.keys, name ≤ file.name →
          (tree.made settings.output).Takes settings.output.place name :=
  Output.mem_taken_files_iff (ne_modelFile_of_isSourceName hname)

theorem hasDirectory_treeAfter {path : Path} (hpath : tree.HasDirectory path) :
    (settings.treeAfter tree conversion).HasDirectory path :=
  (sameDirectories_putAll fun _ => takes_of_mem_written).hasDirectory
    ((growsAt_made tree settings.output).hasDirectory hpath)

/-- What stands under the name of a source file after a run. -/
theorem at?_treeAfter (hsource : tree.HasSource settings.input file) :
    (settings.treeAfter tree conversion).at? (settings.input.child file.name) =
      (settings.treeAfter tree conversion).node? (settings.input.place ++ [file.name]) :=
  (hasDirectory_treeAfter hsource.hasDirectory).at?_child_of_isProper hsource.isFileName
    (isProper_of_isSourceName hsource.isSourceName)

/-- A source file stays as it is if no output is written in its place. -/
theorem at?_treeAfter_of_not_mem (hsource : tree.HasSource settings.input file)
    (hnames : ∀ name ∈ conversion.outputs.keys, Output.nameFault? name = none)
    (hclear : tree.IsClear settings.output)
    (hapart : settings.output.place = settings.input.place →
      file.name ∉ (settings.written tree conversion).map Prod.fst) :
    (settings.treeAfter tree conversion).at? (settings.input.child file.name) =
      some (.file file.content) := by
  rw [at?_treeAfter hsource, Settings.treeAfter, node?_putAll_of_ne fun _ => takes_of_mem_written]
  · exact (growsAt_made tree settings.output).node?_of_some hsource.node?_eq
  · -- Outputs are written into their own directory, so only one of the same name can meet it.
    intro entry hmem heq
    rw [Path.enter_of_isProper (isProper_of_mem_written hnames hclear hmem)] at heq
    obtain ⟨hplace, hentry⟩ := List.append_inj' heq rfl
    have hentry : file.name = entry.1 := by simpa using hentry
    exact hapart hplace.symm (hentry ▸ List.mem_map_of_mem hmem)

/-- Outputs have different names, so that a name of a source file has one text. -/
theorem eq_of_mem_written {other : String} (hname : isSourceName file.name = true)
    (hmem : (file.name, text) ∈ settings.written tree conversion)
    (hother : (file.name, other) ∈ settings.written tree conversion) : text = other := by
  have hfind := SortedMap.find?_eq_some_iff.mpr ((mem_written_iff hname).mp hmem).1
  rw [SortedMap.find?_eq_some_iff.mpr ((mem_written_iff hname).mp hother).1] at hfind
  exact (Option.some.inj hfind).symm

/-- A source file has the text of an output that is written in its place. -/
theorem at?_treeAfter_of_mem (hsource : tree.HasSource settings.input file)
    (hnames : ∀ name ∈ conversion.outputs.keys, Output.nameFault? name = none)
    (hclear : tree.IsClear settings.output)
    (hplace : settings.output.place = settings.input.place)
    (hmem : (file.name, text) ∈ settings.written tree conversion) :
    (settings.treeAfter tree conversion).at? (settings.input.child file.name) =
      some (.file text) := by
  -- The entity model comes behind the outputs, so the last file of the name is looked at.
  obtain ⟨front, ⟨_, last⟩, back, hsplit, rfl : _ = file.name, hlast⟩ :=
    exists_last (fun entry : String × String => entry.1 = file.name) ⟨_, hmem, rfl⟩
  have hlastMem : (file.name, last) ∈ settings.written tree conversion := by
    rw [hsplit]
    exact List.mem_append_right _ List.mem_cons_self
  have hfiles : ∀ entry ∈ settings.written tree conversion,
      (tree.made settings.output).Takes settings.output.place entry.1 :=
    fun entry => takes_of_mem_written
  have hproper : ∀ entry ∈ settings.written tree conversion, Path.IsProper entry.1 :=
    fun entry => isProper_of_mem_written hnames hclear
  rw [at?_treeAfter hsource, ← hplace, Settings.treeAfter,
    eq_of_mem_written hsource.isSourceName hmem hlastMem]
  rw [hsplit] at hfiles hproper ⊢
  exact node?_putAll_of_last hfiles hproper hlast

/-- A source file changes exactly if an output with another text is written in its place. -/
theorem at?_treeAfter_eq_iff (hsource : tree.HasSource settings.input file)
    (hnames : ∀ name ∈ conversion.outputs.keys, Output.nameFault? name = none)
    (hclear : tree.IsClear settings.output) :
    (settings.treeAfter tree conversion).at? (settings.input.child file.name) =
        some (.file file.content) ↔
      ¬ (settings.output.place = settings.input.place ∧ ∃ text,
        (file.name, text) ∈ settings.written tree conversion ∧ text ≠ file.content) := by
  constructor
  · rintro hkept ⟨hplace, text, hmem, hne⟩
    rw [at?_treeAfter_of_mem hsource hnames hclear hplace hmem] at hkept
    cases hkept
    exact hne rfl
  · intro hnot
    by_cases hmeets : settings.output.place = settings.input.place ∧
        file.name ∈ (settings.written tree conversion).map Prod.fst
    · obtain ⟨hplace, hname⟩ := hmeets
      obtain ⟨⟨name, text⟩, hmem, rfl : name = file.name⟩ := List.mem_map.mp hname
      have htext : text = file.content := by
        by_contra hne
        exact hnot ⟨hplace, text, hmem, hne⟩
      rw [at?_treeAfter_of_mem hsource hnames hclear hplace hmem, htext]
    · exact at?_treeAfter_of_not_mem hsource hnames hclear fun hplace hname =>
        hmeets ⟨hplace, hname⟩

end

/-! ## Runs -/

/-- Only a good batch gives a source file another text. -/
theorem Overwrites.not_isBadBatch {conversion : Conversion} {text : String}
    (hsource : tree.HasSource settings.input file)
    (hoverwrites : Overwrites parser tree settings conversion file text) : ¬ IsBadBatch parser tree settings := by
  obtain ⟨files, hfiles, hconversion⟩ := hoverwrites.converts
  rw [isBadBatch_iff hfiles]
  rintro (rfl | hfails | ⟨other, hother, name, hname, hrefused⟩)
  · cases (hasSource_iff_mem hfiles).mp hsource
  · exact hfails ⟨conversion, hconversion⟩
  · rw [hconversion] at hother
    cases hother
    exact hrefused (hoverwrites.accepted name hname)

/-- The names of outputs of a batch that is not bad are accepted. -/
theorem accepted_of_not_isBadBatch {files : List SourceFile} {conversion : Conversion}
    (hgood : ¬ IsBadBatch parser tree settings) (hfiles : tree.sources settings.input = .ok files)
    (hconversion : Conversion.ofFiles parser settings.options files = .ok conversion) :
    ∀ name ∈ conversion.outputs.keys, Output.nameFault? name = none := by
  intro name hmem
  by_contra hrefused
  exact hgood (.refused files conversion name hfiles hconversion hmem hrefused)

/-- What holds for a good batch of files and their conversion. -/
theorem overwrites_iff {files : List SourceFile} {conversion : Conversion}
    (hfiles : tree.sources settings.input = .ok files)
    (hconversion : Conversion.ofFiles parser settings.options files = .ok conversion)
    (hnames : ∀ name ∈ conversion.outputs.keys, Output.nameFault? name = none)
    (hname : isSourceName file.name = true) :
    (∃ conversion text, Overwrites parser tree settings conversion file text) ↔
      tree.IsClear settings.output ∧ settings.output.place = settings.input.place ∧
        ∃ text, (file.name, text) ∈ settings.written tree conversion ∧ text ≠ file.content := by
  constructor
  · rintro ⟨other, text, hoverwrites⟩
    obtain ⟨others, hothers, hother⟩ := hoverwrites.converts
    obtain rfl : files = others := by
      rw [hfiles] at hothers
      exact Except.ok.inj hothers
    obtain rfl : conversion = other := by
      rw [hconversion] at hother
      exact Except.ok.inj hother
    have hwritten := (mem_written_iff hname).mpr ⟨hoverwrites.mem_outputs, hoverwrites.takes⟩
    exact ⟨hoverwrites.isClear, hoverwrites.place_eq, text, hwritten, hoverwrites.text_ne⟩
  · rintro ⟨hclear, hplace, text, hmem, hne⟩
    obtain ⟨houtput, htakes⟩ := (mem_written_iff hname).mp hmem
    exact ⟨conversion, text,
      { converts := ⟨files, hfiles, hconversion⟩
        accepted := hnames
        isClear := hclear
        place_eq := hplace
        mem_outputs := houtput
        text_ne := hne
        takes := htakes }⟩

/-- A run keeps the text of a source file exactly if it does not give it that of an output. -/
theorem run_keeps_iff (hsource : tree.HasSource settings.input file) :
    (StateT.run (run parser settings : StateM FileTree Outcome) tree).2.at?
        (settings.input.child file.name) = some (.file file.content) ↔
      ¬ ∃ conversion text, Overwrites parser tree settings conversion file text := by
  by_cases hbad : IsBadBatch parser tree settings
  · obtain ⟨outcome, hrun, _⟩ := run_of_isBadBatch hbad
    rw [hrun]
    refine ⟨fun _ ⟨conversion, text, hoverwrites⟩ => ?_, fun _ => hsource.content_eq⟩
    exact hoverwrites.not_isBadBatch hsource hbad
  · obtain ⟨files, conversion, hfiles, hconversion, hrun⟩ := run_of_not_isBadBatch hbad
    have hnames := accepted_of_not_isBadBatch hbad hfiles hconversion
    have hafter : (StateT.run (run parser settings : StateM FileTree Outcome) tree).2 =
        (tree.run (Output.write settings.output conversion settings.withModel)).2 := by
      rw [hrun]
      rfl
    rw [hafter, overwrites_iff hfiles hconversion hnames hsource.isSourceName]
    by_cases hclear : tree.IsClear settings.output
    · rw [Output.run_write_snd hnames hclear, and_iff_right hclear]
      exact at?_treeAfter_eq_iff hsource hnames hclear
    · -- Only directories are made then.
      obtain ⟨error, hwrite⟩ :=
        Output.run_write_of_not_isClear settings.withModel hnames hclear
      rw [hwrite]
      refine iff_of_true ?_ fun hmeets => hclear hmeets.1
      exact (growsAt_made tree settings.output).at?_of_some hsource.content_eq

/-- The name of an output is that of a source file only if its extension ends like one. -/
theorem extension_of_isSourceName {fileName extension : String}
    (hname : isSourceName (Naming.withExtension fileName extension) = true) :
    let kept := extension.toList.dropWhile (· = '.')
    kept = "ts".toList ∨ ".ts".toList <:+ kept := by
  intro kept
  have hsource : ".ts".toList <:+ Naming.stem fileName.toList ++ '.' :: kept := by
    unfold isSourceName at hname
    rw [← of_decide_eq_true hname, Naming.withExtension, String.toList_ofList]
    exact List.drop_suffix _ _
  have hpoint : '.' :: kept <:+ Naming.stem fileName.toList ++ '.' :: kept :=
    List.suffix_append _ _
  -- The point in front of the extension is that of `.ts`, or stands before it.
  rcases List.suffix_or_suffix_of_suffix hsource hpoint with hwithin | hwithin
  · rcases List.suffix_cons_iff.mp hwithin with heq | hkept
    · exact Or.inl (List.cons.inj heq).2.symm
    · exact Or.inr hkept
  · rcases List.suffix_cons_iff.mp hwithin with heq | hrest
    · exact Or.inl (List.cons.inj heq).2
    · exact absurd (hrest.subset List.mem_cons_self) (by decide)

theorem Overwrites.extension {conversion : Conversion} {text : String}
    (hsource : isSourceName file.name = true)
    (hoverwrites : Overwrites parser tree settings conversion file text) :
    let kept := settings.extension.toList.dropWhile (· = '.')
    kept = "ts".toList ∨ ".ts".toList <:+ kept := by
  obtain ⟨files, _, hconversion⟩ := hoverwrites.converts
  obtain ⟨catalog, rfl, _⟩ := Conversion.exists_catalog_of_ofFiles hconversion
  obtain ⟨other, _, _, hname, _⟩ := Conversion.exists_file_of_mem_outputsOf hoverwrites.mem_outputs
  rw [hname] at hsource
  -- Points at the start of the extension are dropped for the run and for each name.
  have hkept := extension_of_isSourceName hsource
  rwa [Settings.options, String.toList_ofList, List.dropWhile_idempotent] at hkept

/-- A run keeps every source file that it does not give the text of an output, and it does that
only with an extension that ends like those of source files. -/
theorem run_keepsSource_iff (parser : TreeParser) (settings : Settings) (tree : FileTree)
    {file : SourceFile} (hsource : tree.HasSource settings.input file) :
    ((StateT.run (run parser settings : StateM FileTree Outcome) tree).2.at?
        (settings.input.child file.name) = some (.file file.content) ↔
      ¬ ∃ conversion text, Overwrites parser tree settings conversion file text) ∧
    ((∃ conversion text, Overwrites parser tree settings conversion file text) →
      let kept := settings.extension.toList.dropWhile (· = '.')
      kept = "ts".toList ∨ ".ts".toList <:+ kept) := by
  refine ⟨run_keeps_iff hsource, fun ⟨conversion, text, hoverwrites⟩ => ?_⟩
  exact hoverwrites.extension hsource.isSourceName

theorem hasSource_onlyUsers (content : String) :
    FileTree.HasSource ⟨[(["in"], .directory), (["in", "users.ts"], .file content)]⟩ (.ofText "in")
      ⟨"users.ts", content⟩ := by
  have hname : isSourceName "users.ts" = true := by decide +kernel
  have hat : FileTree.at? ⟨[(["in"], .directory), (["in", "users.ts"], .file content)]⟩
      ((Path.ofText "in").child "users.ts") = some (.file content) := by rfl
  exact ⟨⟨["users.ts"], by rfl, List.mem_singleton_self _⟩, hat, hname⟩

/-- Outputs with the usual extension do not meet the file that is read, although they are written
beside it. -/
theorem run_keepsUsersBesideOutput :
    let users : SourceFile := ⟨"users.ts", "const users=pgTable(\"users\",\x7b\x7d);"⟩
    let tree : FileTree := ⟨[(["in"], .directory), (["in", "users.ts"], .file users.content)]⟩
    let settings : Settings := ⟨"in", "in", "js", false, false⟩
    tree.HasSource settings.input users ∧
    (StateT.run (run Syntax.parser settings : StateM FileTree Outcome) tree).2.at?
      (settings.input.child "users.ts") = some (.file users.content) := by
  intro users tree settings
  have hsource : tree.HasSource settings.input users := hasSource_onlyUsers users.content
  obtain ⟨hkeeps, hextension⟩ := run_keepsSource_iff Syntax.parser settings tree hsource
  exact ⟨hsource, hkeeps.mpr fun hoverwrites =>
    absurd (hextension hoverwrites) (by decide +kernel)⟩

/-- With the extension of source files, an output takes the place of the file that it is made
from. -/
theorem not_forall_run_keepsSource :
    ¬ ∀ (settings : Settings) tree file, tree.HasSource settings.input file →
      (StateT.run (run Syntax.parser settings : StateM FileTree Outcome) tree).2.at?
        (settings.input.child file.name) = some (.file file.content) := by
  intro hkeeps
  let users : SourceFile := ⟨"users.ts", "const users=pgTable(\"users\",\x7b\x7d);"⟩
  let tree : FileTree := ⟨[(["in"], .directory), (["in", "users.ts"], .file users.content)]⟩
  have hkept := hkeeps ⟨"in", "in", "ts", false, false⟩ tree users
    (hasSource_onlyUsers users.content)
  exact absurd hkept (by decide +kernel)

end CommandLine

end EntityModel
