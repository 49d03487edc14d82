import EntityModel.CommandLine
import EntityModel.Proofs.Conversion.Insertion
import EntityModel.Proofs.File.Access

/-!
# Batches are all or nothing

A run on a directory first reads all its source files, then converts them together, then checks the
names of all outputs, and only then writes. What fails before that leaves every file as it is.
-/

namespace EntityModel

open CommandLine

/-! ## Reading source files -/

namespace FileTree

variable {tree : FileTree} {directory : Path}

/-- Whether a source file stands in a directory. -/
structure HasSource (tree : FileTree) (directory : Path) (file : SourceFile) : Prop where
  listed : ∃ names, tree.list directory = .ok names ∧ file.name ∈ names
  content_eq : tree.at? (directory.child file.name) = some (.file file.content)
  isSourceName : isSourceName file.name = true

/-- The source file of a name in a directory, if it is that of one. -/
def source? (tree : FileTree) (directory : Path) (name : String) : Option SourceFile :=
  match tree.at? (directory.child name) with
  | some (.file content) => if CommandLine.isSourceName name then some ⟨name, content⟩ else none
  | _ => none

/-- The source files in a directory, in the order of their names. -/
def sources (tree : FileTree) (directory : Path) : Except FileError (List SourceFile) :=
  (tree.list directory).map fun names =>
    ((names.filter fun name => (tree.source? directory name).isSome).mergeSort
      fun first second => !decide (second < first)).filterMap (tree.source? directory)

theorem source?_eq_some_iff {name : String} {file : SourceFile} :
    tree.source? directory name = some file ↔ file.name = name ∧
      tree.at? (directory.child name) = some (.file file.content) ∧
      CommandLine.isSourceName name = true := by
  unfold source?
  split
  next content hat =>
    rw [hat]
    constructor
    · intro hsome
      split at hsome
      next hname =>
        cases hsome
        exact ⟨rfl, rfl, hname⟩
      next => cases hsome
    · rintro ⟨rfl, hcontent, hname⟩
      cases hcontent
      rw [if_pos hname]
  next hnone =>
    constructor
    · nofun
    · rintro ⟨_, hcontent, _⟩
      exact absurd hcontent (hnone _)

/-- A name is that of a source file if a file stands there and the name has the extension. -/
theorem isSome_source? (name : String) : (tree.source? directory name).isSome =
    (tree.isFile (directory.child name) && CommandLine.isSourceName name) := by
  unfold source? isFile
  rcases tree.at? (directory.child name) with _ | _ | content
  · rfl
  · rfl
  · cases CommandLine.isSourceName name <;> rfl

theorem hasSource_iff_mem_sources {file : SourceFile} : tree.HasSource directory file ↔
    ∃ files, tree.sources directory = .ok files ∧ file ∈ files := by
  unfold sources
  constructor
  · rintro ⟨⟨names, hlist, hmem⟩, hcontent, hname⟩
    have hsource : tree.source? directory file.name = some file :=
      source?_eq_some_iff.mpr ⟨rfl, hcontent, hname⟩
    refine ⟨_, by rw [hlist]; rfl, List.mem_filterMap.mpr ⟨file.name, ?_, hsource⟩⟩
    rw [List.mem_mergeSort, List.mem_filter, hsource]
    exact ⟨hmem, rfl⟩
  · rintro ⟨files, hsources, hmem⟩
    cases hlist : tree.list directory with
    | error error =>
        rw [hlist] at hsources
        cases hsources
    | ok names =>
        rw [hlist] at hsources
        cases hsources
        obtain ⟨name, hname, hsource⟩ := List.mem_filterMap.mp hmem
        rw [List.mem_mergeSort, List.mem_filter] at hname
        obtain ⟨rfl, hcontent, hsourceName⟩ := source?_eq_some_iff.mp hsource
        exact ⟨⟨names, hlist, hname.1⟩, hcontent, hsourceName⟩

theorem hasSource_iff_mem {files : List SourceFile} (hfiles : tree.sources directory = .ok files)
    {file : SourceFile} : tree.HasSource directory file ↔ file ∈ files := by
  rw [hasSource_iff_mem_sources, hfiles]
  constructor
  · rintro ⟨_, ⟨⟩, hmem⟩
    exact hmem
  · exact fun hmem => ⟨files, rfl, hmem⟩

/-- Asking for the kinds of files finds the names of source files. -/
theorem run_sourceNames (names : List String) : tree.run (sourceNames directory names) =
    (.ok (names.filter fun name => (tree.source? directory name).isSome), tree) := by
  induction names with
  | nil => rfl
  | cons name names ih =>
      rw [sourceNames, run_bind_of_ok (run_isFile _), run_bind_of_ok ih, run_pure,
        List.filter_cons, isSome_source?]

theorem run_readFiles {names : List String}
    (hnames : ∀ name ∈ names, (tree.source? directory name).isSome = true) :
    tree.run (readFiles directory names) =
      (.ok (names.filterMap (tree.source? directory)), tree) := by
  induction names with
  | nil => rfl
  | cons name names ih =>
      obtain ⟨hname, hrest⟩ := List.forall_mem_cons.mp hnames
      obtain ⟨file, hfile⟩ := Option.isSome_iff_exists.mp hname
      obtain ⟨rfl, hcontent, _⟩ := source?_eq_some_iff.mp hfile
      have hread : tree.run (ExceptT.mk (FileAccess.read (directory.child file.name))) =
          (.ok file.content, tree) := by
        rw [run_read, read_eq_ok_of_at? hcontent]
      rw [readFiles, run_bind_of_ok hread, run_bind_of_ok (ih hrest), run_pure,
        List.filterMap_cons, hfile]

/-- Reading finds the source files of a directory and leaves all files as they are. -/
theorem run_readSources : tree.run (readSources directory) = (tree.sources directory, tree) := by
  have hask : tree.run (ExceptT.mk (FileAccess.list directory)) = (tree.list directory, tree) :=
    run_list directory
  unfold readSources sources
  cases hlist : tree.list directory with
  | error error =>
      rw [hlist] at hask
      exact run_bind_of_error hask _
  | ok names =>
      rw [hlist] at hask
      rw [run_bind_of_ok hask, run_bind_of_ok (run_sourceNames names), run_readFiles]
      · rfl
      · intro name hmem
        rw [List.mem_mergeSort, List.mem_filter] at hmem
        exact hmem.2

end FileTree

/-! ## Writing -/

namespace Output

variable {tree : FileTree}

/-- The first name that is refused decides. -/
theorem checkNames_append_cons {front back : List String} {name : String} {fault : NameFault}
    (hfront : ∀ other ∈ front, nameFault? other = none) (hfault : nameFault? name = some fault) :
    checkNames (front ++ name :: back) = .error (.outputName name fault) := by
  induction front with
  | nil => rw [List.nil_append, checkNames, hfault]
  | cons other front ih =>
      obtain ⟨hother, hfront⟩ := List.forall_mem_cons.mp hfront
      rw [List.cons_append, checkNames, hother]
      exact ih hfront

/-- Where names are refused, one of them is refused first. -/
theorem exists_first_refused {names : List String} (hrefused : ∃ name ∈ names,
    nameFault? name ≠ none) : ∃ front name back fault, names = front ++ name :: back ∧
      (∀ other ∈ front, nameFault? other = none) ∧ nameFault? name = some fault := by
  induction names with
  | nil =>
      obtain ⟨_, hmem, _⟩ := hrefused
      cases hmem
  | cons first names ih =>
      cases hfirst : nameFault? first with
      | some fault => exact ⟨[], first, names, fault, rfl, List.forall_mem_nil _, hfirst⟩
      | none =>
          obtain ⟨name, hmem, hname⟩ := hrefused
          have hmem : name ∈ names := (List.mem_cons.mp hmem).resolve_left fun heq =>
            hname (heq ▸ hfirst)
          obtain ⟨front, least, back, fault, rfl, hfront, hfault⟩ := ih ⟨name, hmem, hname⟩
          exact ⟨first :: front, least, back, fault, rfl,
            List.forall_mem_cons.mpr ⟨hfirst, hfront⟩, hfault⟩

/-- Where a name is refused, nothing is written. -/
theorem run_write_of_error {directory : Path} {conversion : Conversion} {failure : Failure}
    (hnames : checkNames conversion.outputs.keys = .error failure) (withModel : Bool) :
    tree.run (write directory conversion withModel) = (.error failure, tree) := by
  unfold write
  rw [hnames]
  rfl

/-- Whether a name is the least one that is refused among those of outputs. -/
structure IsFirstRefused (outputs : SortedMap String) (name : String) (fault : NameFault) :
    Prop where
  mem_keys : name ∈ outputs.keys
  fault_eq : nameFault? name = some fault
  le_of_refused : ∀ other ∈ outputs.keys, nameFault? other ≠ none → name ≤ other

/-- Of the names of outputs that are refused, the least one is reported. -/
theorem exists_isFirstRefused {outputs : SortedMap String}
    (hrefused : ∃ name ∈ outputs.keys, nameFault? name ≠ none) : ∃ name fault,
      IsFirstRefused outputs name fault ∧
      checkNames outputs.keys = .error (.outputName name fault) := by
  have hsorted : outputs.keys.Pairwise fun first second => first < second := by
    rw [SortedMap.keys, List.pairwise_map]
    exact outputs.sorted
  obtain ⟨front, name, back, fault, hsplit, hfront, hfault⟩ := exists_first_refused hrefused
  refine ⟨name, fault, ⟨?_, hfault, fun other hother hrefusedOther => ?_⟩, ?_⟩
  · rw [hsplit]
    exact List.mem_append_right _ List.mem_cons_self
  · -- Names in front are not refused, and those behind are greater.
    rw [hsplit] at hother hsorted
    rcases List.mem_append.mp hother with hmem | hmem
    · exact absurd (hfront other hmem) hrefusedOther
    · rcases List.mem_cons.mp hmem with rfl | hmem
      · exact String.le_refl other
      · have hpairs := List.pairwise_cons.mp (List.pairwise_append.mp hsorted).2.1
        exact Std.le_of_lt (hpairs.1 other hmem)
  · rw [hsplit]
    exact checkNames_append_cons hfront hfault

end Output

/-! ## Converting -/

/-- Whether a parser makes no tree without errors of a source text. -/
def TreeParser.IsMalformed (parser : TreeParser) (source : String) : Prop :=
  ∀ tree, parser.tree? source = some tree → tree.head.hasError = true

namespace Conversion

variable {parser : TreeParser} {options : Options} {files : List SourceFile}

theorem exists_parse_iff {file : SourceFile} : (∃ parsed, file.parse parser = .ok parsed) ↔
    parser.fault? = none ∧ ¬ parser.IsMalformed file.content := by
  constructor
  · rintro ⟨parsed, hparsed⟩
    obtain ⟨hfault, tree, htree, hfine, _⟩ := parse_eq_ok_iff.mp hparsed
    refine ⟨hfault, fun hmalformed => ?_⟩
    rw [hmalformed tree htree] at hfine
    cases hfine
  · rintro ⟨hfault, hformed⟩
    unfold TreeParser.IsMalformed at hformed
    push Not at hformed
    obtain ⟨tree, htree, hfine⟩ := hformed
    exact ⟨_, parse_eq_ok_iff.mpr ⟨hfault, tree, htree, Bool.eq_false_iff.mpr hfine, rfl⟩⟩

theorem exists_modules_iff : (∃ modules, Conversion.modules parser files = .ok modules) ↔
    ∀ file ∈ files, parser.fault? = none ∧ ¬ parser.IsMalformed file.content := by
  simp only [← exists_parse_iff]
  induction files with
  | nil => exact ⟨fun _ => List.forall_mem_nil _, fun _ => ⟨[], rfl⟩⟩
  | cons file files ih =>
      simp only [modules_cons_eq_ok_iff, List.forall_mem_cons, ← ih]
      constructor
      · rintro ⟨_, parsed, others, hparsed, hothers, _⟩
        exact ⟨⟨parsed, hparsed⟩, others, hothers⟩
      · rintro ⟨⟨parsed, hparsed⟩, others, hothers⟩
        exact ⟨_, parsed, others, hparsed, hothers, rfl⟩

/-- Files convert exactly if the parser can be used and each of them is well formed. -/
theorem exists_ofFiles_iff : (∃ conversion, ofFiles parser options files = .ok conversion) ↔
    ∀ file ∈ files, parser.fault? = none ∧ ¬ parser.IsMalformed file.content := by
  rw [← exists_modules_iff, ofFiles]
  cases Conversion.modules parser files with
  | error failure =>
      constructor
      · intro hresult
        cases hresult.choose_spec
      · intro hresult
        cases hresult.choose_spec
  | ok modules => exact ⟨fun _ => ⟨modules, rfl⟩, fun _ => ⟨_, rfl⟩⟩

end Conversion

/-! ## Running -/

namespace CommandLine

variable {parser : TreeParser} {tree : FileTree} {settings : Settings}

/-- What a run ends with once it has tried to write a conversion. -/
def Settings.outcomeOf (settings : Settings) (conversion : Conversion) :
    Except Failure (List String) → Outcome
  | .error failure => .failed ("Error writing output: " ++ failure.message)
  | .ok _ => report settings conversion

theorem run_outcomeOf (settings : Settings) (conversion : Conversion)
    (program : ExceptT Failure (StateM FileTree) (List String)) (tree : FileTree) :
    StateT.run (do
      match ← program.run with
      | .error failure => return .failed ("Error writing output: " ++ failure.message)
      | .ok _ => return report settings conversion : StateM FileTree Outcome) tree =
      (settings.outcomeOf conversion (tree.run program).1, (tree.run program).2) := by
  rw [StateT.run_bind, FileTree.run]
  generalize StateT.run (ExceptT.run program) tree = result
  obtain ⟨answer, after⟩ := result
  cases answer <;> rfl

/-- What a run does on a directory, step by step; only writing changes files. -/
theorem run_eq (parser : TreeParser) (settings : Settings) (tree : FileTree) :
    StateT.run (run parser settings : StateM FileTree Outcome) tree =
      match tree.sources (.ofText settings.inputDirectory) with
      | .error error =>
        (.failed ("Error reading " ++ settings.inputDirectory ++ ": " ++ error.message), tree)
      | .ok [] => (.failed ("No .ts files found in " ++ settings.inputDirectory), tree)
      | .ok files =>
        match Conversion.ofFiles parser settings.options files with
        | .error failure => (.failed ("Conversion error: " ++ failure.message), tree)
        | .ok conversion =>
          let (answer, after) := tree.run
            (Output.write (.ofText settings.outputDirectory) conversion settings.withModel)
          (settings.outcomeOf conversion answer, after) := by
  have hread : StateT.run (ExceptT.run (readSources (.ofText settings.inputDirectory) :
      ExceptT FileError (StateM FileTree) (List SourceFile))) tree =
      (tree.sources (.ofText settings.inputDirectory), tree) := FileTree.run_readSources
  unfold run
  rw [StateT.run_bind, hread]
  cases tree.sources (.ofText settings.inputDirectory) with
  | error error => rfl
  | ok files =>
      cases files with
      | nil => rfl
      | cons file files =>
          -- Both sides now go on by what the conversion gives.
          change StateT.run (match Conversion.ofFiles parser settings.options (file :: files) with
            | .error failure => _
            | .ok conversion => _) tree =
            match Conversion.ofFiles parser settings.options (file :: files) with
            | .error failure => _
            | .ok conversion => _
          cases Conversion.ofFiles parser settings.options (file :: files) with
          | error failure => rfl
          | ok conversion => exact run_outcomeOf settings conversion _ tree

/-- Whether the source files of a directory cannot all become outputs that may be written. -/
inductive IsBadBatch (parser : TreeParser) (tree : FileTree) (settings : Settings) : Prop where
  | empty (hnone : ∀ file, ¬ tree.HasSource (.ofText settings.inputDirectory) file)
  | unloaded (hgrammar : parser.fault? ≠ none)
  | malformed (file : SourceFile)
      (hsource : tree.HasSource (.ofText settings.inputDirectory) file)
      (hmalformed : parser.IsMalformed file.content)
  | refused (files : List SourceFile) (conversion : Conversion) (name : String)
      (hfiles : tree.sources (.ofText settings.inputDirectory) = .ok files)
      (hconversion : Conversion.ofFiles parser settings.options files = .ok conversion)
      (hname : name ∈ conversion.outputs.keys) (hrefused : Output.nameFault? name ≠ none)

theorem isBadBatch_of_error {error : FileError}
    (hfiles : tree.sources (.ofText settings.inputDirectory) = .error error) :
    IsBadBatch parser tree settings := by
  refine .empty fun file hsource => ?_
  obtain ⟨_, hsources, _⟩ := FileTree.hasSource_iff_mem_sources.mp hsource
  rw [hfiles] at hsources
  cases hsources

/-- What is bad about a batch, in terms of the files that are read and what they convert to. -/
theorem isBadBatch_iff {files : List SourceFile}
    (hfiles : tree.sources (.ofText settings.inputDirectory) = .ok files) :
    IsBadBatch parser tree settings ↔ files = [] ∨
      (¬ ∃ conversion, Conversion.ofFiles parser settings.options files = .ok conversion) ∨
      ∃ conversion, Conversion.ofFiles parser settings.options files = .ok conversion ∧
        ∃ name ∈ conversion.outputs.keys, Output.nameFault? name ≠ none := by
  constructor
  · intro hbad
    cases hbad with
    | empty hnone =>
        refine Or.inl (List.eq_nil_iff_forall_not_mem.mpr fun file hmem => ?_)
        exact hnone file ((FileTree.hasSource_iff_mem hfiles).mpr hmem)
    | unloaded hgrammar =>
        cases files with
        | nil => exact Or.inl rfl
        | cons file files =>
            refine Or.inr (Or.inl fun hconverts => ?_)
            have hformed := Conversion.exists_ofFiles_iff.mp hconverts file List.mem_cons_self
            exact hgrammar hformed.1
    | malformed file hsource hmalformed =>
        refine Or.inr (Or.inl fun hconverts => ?_)
        have hmem := (FileTree.hasSource_iff_mem hfiles).mp hsource
        exact (Conversion.exists_ofFiles_iff.mp hconverts file hmem).2 hmalformed
    | refused _ conversion name hsources hconversion hname hrefused =>
        cases hfiles.symm.trans hsources
        exact Or.inr (Or.inr ⟨conversion, hconversion, name, hname, hrefused⟩)
  · rintro (rfl | hfails | ⟨conversion, hconversion, name, hname, hrefused⟩)
    · refine .empty fun file hsource => ?_
      cases (FileTree.hasSource_iff_mem hfiles).mp hsource
    · by_cases hgrammar : parser.fault? = none
      · rw [Conversion.exists_ofFiles_iff] at hfails
        push Not at hfails
        obtain ⟨file, hmem, hmalformed⟩ := hfails
        exact .malformed file ((FileTree.hasSource_iff_mem hfiles).mpr hmem)
          (hmalformed hgrammar)
      · exact .unloaded hgrammar
    · exact .refused files conversion name hfiles hconversion hname hrefused

/-- A run on a bad batch fails and leaves every file as it is. -/
theorem run_of_isBadBatch (hbad : IsBadBatch parser tree settings) :
    ∃ outcome, StateT.run (run parser settings : StateM FileTree Outcome) tree = (outcome, tree) ∧
      outcome.code = 2 := by
  rw [run_eq]
  cases hfiles : tree.sources (.ofText settings.inputDirectory) with
  | error error => exact ⟨_, rfl, rfl⟩
  | ok files =>
      rcases (isBadBatch_iff hfiles).mp hbad with
        rfl | hfails | ⟨conversion, hconversion, hrefused⟩
      · exact ⟨_, rfl, rfl⟩
      · cases files with
        | nil => exact ⟨_, rfl, rfl⟩
        | cons file files =>
            dsimp only
            cases hconversion : Conversion.ofFiles parser settings.options (file :: files) with
            | error failure => exact ⟨_, rfl, rfl⟩
            | ok conversion => exact absurd ⟨conversion, hconversion⟩ hfails
      · obtain ⟨_, _, _, hnames⟩ := Output.exists_isFirstRefused hrefused
        cases files with
        | nil => exact ⟨_, rfl, rfl⟩
        | cons file files =>
            dsimp only
            rw [hconversion]
            dsimp only
            rw [Output.run_write_of_error hnames]
            exact ⟨_, rfl, rfl⟩

/-- A run on any other batch writes the conversion of all its files. -/
theorem run_of_not_isBadBatch (hgood : ¬ IsBadBatch parser tree settings) :
    ∃ files conversion, tree.sources (.ofText settings.inputDirectory) = .ok files ∧
      Conversion.ofFiles parser settings.options files = .ok conversion ∧
      StateT.run (run parser settings : StateM FileTree Outcome) tree =
        let (answer, after) := tree.run
          (Output.write (.ofText settings.outputDirectory) conversion settings.withModel)
        (settings.outcomeOf conversion answer, after) := by
  rw [run_eq]
  cases hfiles : tree.sources (.ofText settings.inputDirectory) with
  | error error => exact absurd (isBadBatch_of_error hfiles) hgood
  | ok files =>
      rw [isBadBatch_iff hfiles, not_or, not_or, not_not] at hgood
      obtain ⟨hsome, ⟨conversion, hconversion⟩, _⟩ := hgood
      refine ⟨files, conversion, rfl, hconversion, ?_⟩
      cases files with
      | nil => exact absurd rfl hsome
      | cons file files =>
          dsimp only
          rw [hconversion]

/-- Nothing is written unless a whole batch is good: a run on a bad one fails and leaves all files
as they are, and so does writing outputs of which any name is refused, which reports the least of
these names. A run on any other batch writes the conversion of all its files. -/
theorem run_allOrNothing :
    (∀ parser tree settings,
      (IsBadBatch parser tree settings → ∃ outcome,
        StateT.run (run parser settings : StateM FileTree Outcome) tree = (outcome, tree) ∧
        outcome.code = 2) ∧
      (¬ IsBadBatch parser tree settings → ∃ files conversion,
        tree.sources (.ofText settings.inputDirectory) = .ok files ∧
        Conversion.ofFiles parser settings.options files = .ok conversion ∧
        StateT.run (run parser settings : StateM FileTree Outcome) tree =
          let (answer, after) := tree.run
            (Output.write (.ofText settings.outputDirectory) conversion settings.withModel)
          (settings.outcomeOf conversion answer, after))) ∧
    (∀ (tree : FileTree) directory conversion withModel,
      (∃ name ∈ conversion.outputs.keys, Output.nameFault? name ≠ none) → ∃ name fault,
        Output.IsFirstRefused conversion.outputs name fault ∧
        tree.run (Output.write directory conversion withModel) =
          (.error (.outputName name fault), tree)) := by
  constructor
  · intro parser tree settings
    exact ⟨run_of_isBadBatch, run_of_not_isBadBatch⟩
  · intro tree directory conversion withModel hrefused
    obtain ⟨name, fault, hfirst, hnames⟩ := Output.exists_isFirstRefused hrefused
    exact ⟨name, fault, hfirst, Output.run_write_of_error hnames withModel⟩

/-- A file that is not well formed stands beside one that is, and the outputs of a conversion are to
leave their directory. -/
theorem run_malformedBesideUsers :
    let users := "const users=pgTable(\"users\",\x7b\x7d);"
    let tree : FileTree := ⟨[(["in"], .directory), (["in", "bad.ts"], .file "const ="),
      (["in", "users.ts"], .file users)]⟩
    let settings : Settings := ⟨"in", "typeorm-output", "js", false, false⟩
    let conversion : Conversion := ⟨SortedMap.ofList [("ok.js", ""), ("../escape.js", "")], []⟩
    (∃ outcome, StateT.run (run Syntax.parser settings : StateM FileTree Outcome) tree =
      (outcome, tree) ∧ outcome.code = 2) ∧
    (∃ name fault, Output.IsFirstRefused conversion.outputs name fault ∧
      tree.run (Output.write (.ofText "out") conversion true) =
        (.error (.outputName name fault), tree)) := by
  intro users tree settings conversion
  have hrefused : ∃ name ∈ conversion.outputs.keys, Output.nameFault? name ≠ none :=
    ⟨"../escape.js", by decide +kernel, by decide +kernel⟩
  refine ⟨?_, run_allOrNothing.2 tree (.ofText "out") conversion true hrefused⟩
  have hsource : tree.HasSource (.ofText "in") ⟨"bad.ts", "const ="⟩ :=
    ⟨⟨["bad.ts", "users.ts"], by rfl, by simp⟩, by rfl, by decide +kernel⟩
  have hmalformed : Syntax.parser.IsMalformed "const =" := by
    have herror : (Syntax.parser.tree? "const =").all (·.head.hasError) = true := by
      decide +kernel
    intro tree htree
    rwa [htree] at herror
  exact (run_allOrNothing.1 Syntax.parser tree settings).1 (.malformed _ hsource hmalformed)

end CommandLine

end EntityModel
