import EntityModel.Conversion
import EntityModel.Proofs.Catalog.Insertion
import EntityModel.Proofs.Context.Refinement
import EntityModel.Syntax.Program

/-!
# Converting files that share nothing

Among files that convert, another one that shares no names with them does not interfere: each of
them gives the same output as without it, and their tables the same entities.
-/

namespace EntityModel.Conversion

variable {parser : TreeParser}

/-- Files convert if the first one and the others do. -/
theorem modules_cons_eq_ok_iff {file : SourceFile} {rest : List SourceFile}
    {modules : List Module} : Conversion.modules parser (file :: rest) = .ok modules ↔
      ∃ parsed others, file.parse parser = .ok parsed ∧
        Conversion.modules parser rest = .ok others ∧ modules = parsed :: others := by
  rw [Conversion.modules]
  cases file.parse parser with
  | error failure => exact ⟨nofun, fun ⟨_, _, hparsed, _⟩ => nomatch hparsed⟩
  | ok parsed =>
      cases Conversion.modules parser rest with
      | error failure => exact ⟨nofun, fun ⟨_, _, _, hothers, _⟩ => nomatch hothers⟩
      | ok others =>
          constructor
          · intro hmodules
            cases hmodules
            exact ⟨parsed, others, rfl, rfl, rfl⟩
          · rintro ⟨_, _, hparsed, hothers, rfl⟩
            cases hparsed
            cases hothers
            rfl

theorem modules_append_eq_ok {front back : List SourceFile} {modules : List Module}
    (hmodules : Conversion.modules parser (front ++ back) = .ok modules) :
    ∃ first second, Conversion.modules parser front = .ok first ∧
      Conversion.modules parser back = .ok second ∧ modules = first ++ second := by
  induction front generalizing modules with
  | nil => exact ⟨[], modules, rfl, hmodules, rfl⟩
  | cons file front ih =>
      obtain ⟨parsed, others, hparsed, hothers, rfl⟩ := modules_cons_eq_ok_iff.mp hmodules
      obtain ⟨first, second, hfirst, hsecond, rfl⟩ := ih hothers
      exact ⟨parsed :: first, second,
        modules_cons_eq_ok_iff.mpr ⟨parsed, first, hparsed, hfirst, rfl⟩, hsecond, rfl⟩

theorem modules_insert {front back : List SourceFile} {added : SourceFile}
    {first second : List Module} {parsed : Module}
    (hfront : Conversion.modules parser front = .ok first)
    (hback : Conversion.modules parser back = .ok second)
    (hadded : added.parse parser = .ok parsed) :
    Conversion.modules parser (front ++ added :: back) = .ok (first ++ parsed :: second) := by
  induction front generalizing first with
  | nil =>
      cases hfront
      exact modules_cons_eq_ok_iff.mpr ⟨parsed, second, hadded, hback, rfl⟩
  | cons file front ih =>
      obtain ⟨module, others, hfile, hothers, rfl⟩ := modules_cons_eq_ok_iff.mp hfront
      exact modules_cons_eq_ok_iff.mpr ⟨module, _, hfile, ih hothers, rfl⟩

/-- A file is read exactly if the parser can be used and makes a tree without errors of it. -/
theorem parse_eq_ok_iff {file : SourceFile} {parsed : Module} :
    file.parse parser = .ok parsed ↔ parser.fault? = none ∧ ∃ tree,
      parser.tree? file.content = some tree ∧ tree.head.hasError = false ∧
        parsed = ⟨file.name, tree.declarations⟩ := by
  unfold SourceFile.parse TreeParser.module
  cases parser.fault? with
  | some report => simp
  | none =>
      cases parser.tree? file.content with
      | none => simp
      | some tree =>
          cases herror : tree.head.hasError with
          | true => simp [herror]
          | false => simpa [herror] using eq_comm

theorem fileName_of_parse {file : SourceFile} {parsed : Module}
    (hparsed : file.parse parser = .ok parsed) : parsed.fileName = file.name := by
  obtain ⟨_, _, _, _, rfl⟩ := parse_eq_ok_iff.mp hparsed
  rfl

/-- What files convert to is given by the catalog of their modules. -/
theorem ofFiles_of_modules {options : Options} {files : List SourceFile} {modules : List Module}
    (hmodules : Conversion.modules parser files = .ok modules) :
    ofFiles parser options files =
      .ok ⟨outputsOf (Catalog.ofModules options.builders modules) options.extension files,
        (Catalog.ofModules options.builders modules).entities⟩ := by
  rw [← (Context.refines_ofModules options.builders modules).catalog_eq, ofFiles, hmodules]
  rfl

variable {catalog other : Catalog} {extension : String}

/-- The output of a file depends on its own entities alone. -/
theorem output?_congr {file : SourceFile}
    (hsame : other.entitiesIn file.name = catalog.entitiesIn file.name) :
    output? other extension file = output? catalog extension file := by
  rw [output?, output?, hsame]

theorem output?_eq_some_iff {file : SourceFile} {output : String × String} :
    output? catalog extension file = some output ↔ catalog.entitiesIn file.name ≠ [] ∧
      output = (Naming.withExtension file.name extension,
        Schema.fileText (catalog.entitiesIn file.name)) := by
  unfold output?
  cases hentities : catalog.entitiesIn file.name with
  | nil => exact ⟨nofun, fun hsome => absurd rfl hsome.1⟩
  | cons entity entities =>
      exact ⟨fun hsome => ⟨List.cons_ne_nil _ _, (Option.some.inj hsome).symm⟩,
        fun houtput => congrArg some houtput.2.symm⟩

/-- Outputs of other names are the same without a file that leaves the entities of all others. -/
theorem find?_outputsOf_insert {front back : List SourceFile} {added : SourceFile} {name : String}
    (hsame : ∀ file ∈ front ++ back,
      other.entitiesIn file.name = catalog.entitiesIn file.name)
    (hname : name ≠ Naming.withExtension added.name extension) :
    (outputsOf other extension (front ++ added :: back)).find? name =
      (outputsOf catalog extension (front ++ back)).find? name := by
  have hothers : ∀ file ∈ front ++ back,
      output? other extension file = output? catalog extension file :=
    fun file hmem => output?_congr (hsame file hmem)
  -- Of the added file there is one output at most, which has another name.
  have hkey : name ∉ (([added].filterMap (output? other extension)).reverse).map Prod.fst := by
    intro hmem
    obtain ⟨output, houtput, rfl⟩ := List.mem_map.mp hmem
    obtain ⟨file, hfile, houtput⟩ := List.mem_filterMap.mp (List.mem_reverse.mp houtput)
    rw [List.mem_singleton.mp hfile] at houtput
    exact hname (congrArg Prod.fst (output?_eq_some_iff.mp houtput).2)
  rw [outputsOf, outputsOf, SortedMap.find?_ofList, SortedMap.find?_ofList,
    ← List.filterMap_congr hothers, ← List.singleton_append, List.filterMap_append,
    List.filterMap_append, List.filterMap_append, List.reverse_append, List.reverse_append,
    List.reverse_append, List.append_assoc, lookup_append_middle hkey]

/-- Whether files share nothing can be checked by reading them. -/
theorem exists_modules_of_any {files : List SourceFile} {added : SourceFile} {builders : Builders}
    (hchecked : ((modules parser files).toOption.any fun modules =>
      (added.parse parser).toOption.any fun parsed =>
        decide (builders.SharesNothing modules parsed)) = true) :
    ∃ modules parsed, Conversion.modules parser files = .ok modules ∧
      added.parse parser = .ok parsed ∧ builders.SharesNothing modules parsed := by
  cases hmodules : Conversion.modules parser files with
  | error failure =>
      rw [hmodules] at hchecked
      cases hchecked
  | ok modules =>
      cases hparsed : added.parse parser with
      | error failure =>
          rw [hmodules, hparsed] at hchecked
          cases hchecked
      | ok parsed =>
          rw [hmodules, hparsed] at hchecked
          exact ⟨modules, parsed, rfl, rfl, of_decide_eq_true hchecked⟩

/-- A file that shares no names with others that convert may stand anywhere among them: each of
them gives the same output, and the entities of their tables are the same, in the same order. -/
theorem ofFiles_insert {options : Options} {front back : List SourceFile} {added : SourceFile}
    {modules : List Module} {parsed : Module}
    (hmodules : Conversion.modules parser (front ++ back) = .ok modules)
    (hadded : added.parse parser = .ok parsed)
    (hshares : options.builders.SharesNothing modules parsed)
    (hnames : ∀ file ∈ front ++ back, file.name ≠ added.name)
    (houtputs : ∀ file ∈ front ++ back, Naming.withExtension file.name options.extension ≠
      Naming.withExtension added.name options.extension) :
    ∃ conversion extended, ofFiles parser options (front ++ back) = .ok conversion ∧
      ofFiles parser options (front ++ added :: back) = .ok extended ∧
      (∀ file ∈ front ++ back,
        extended.outputs.find? (Naming.withExtension file.name options.extension) =
          conversion.outputs.find? (Naming.withExtension file.name options.extension)) ∧
      extended.entities.filter
        (fun entity => entity.binding ∈ conversion.entities.map (·.binding)) =
        conversion.entities := by
  obtain ⟨first, second, hfirst, hsecond, rfl⟩ := modules_append_eq_ok hmodules
  have hextended := modules_insert hfirst hsecond hadded
  refine ⟨_, _, ofFiles_of_modules hmodules, ofFiles_of_modules hextended, ?_, ?_⟩
  · intro file hmem
    apply find?_outputsOf_insert
    · intro file hmem
      apply Catalog.entitiesIn_ofModules_insert hshares
      rw [fileName_of_parse hadded]
      exact hnames file hmem
    · exact houtputs file hmem
  · -- The variables of the entities are those of the tables that the modules declare.
    have hbindings : ∀ binding, binding ∈ (Catalog.ofModules options.builders
        (first ++ second)).entities.map (·.binding) ↔
        binding ∈ options.builders.tableBindings (first ++ second) := by
      intro binding
      rw [Catalog.map_binding_ofModules, List.mem_eraseDups]
      rfl
    dsimp only
    simp only [hbindings]
    exact Catalog.entities_ofModules_insert hshares

/-- Tags with an enumeration of their own stand between users and posts that refer to these. -/
theorem ofFiles_usersTagsPosts :
    let users : SourceFile := ⟨"users.ts", "const users=pgTable(\"users\",\x7bid:uuid()\x7d);"⟩
    let tags : SourceFile := ⟨"tags.ts",
      "const kind=pgEnum(\"kind\",[\"a\"]);const tags=pgTable(\"tags\",\x7bkind:kind()\x7d);"⟩
    let posts : SourceFile := ⟨"posts.ts",
      "const posts=pgTable(\"posts\",\x7b\x7d);" ++
        "const r=relations(posts,(\x7bone\x7d)=>(\x7bauthor:one(users)\x7d));"⟩
    ∃ modules parsed, Conversion.modules Syntax.parser ([users] ++ [posts]) = .ok modules ∧
      tags.parse Syntax.parser = .ok parsed ∧ Builders.usual.SharesNothing modules parsed ∧
      (∀ file ∈ [users] ++ [posts], file.name ≠ tags.name) ∧
      (∀ file ∈ [users] ++ [posts], Naming.withExtension file.name Options.usual.extension ≠
        Naming.withExtension tags.name Options.usual.extension) ∧
      ∃ conversion extended,
        ofFiles Syntax.parser Options.usual ([users] ++ [posts]) = .ok conversion ∧
        ofFiles Syntax.parser Options.usual ([users] ++ tags :: [posts]) = .ok extended ∧
        (∀ file ∈ [users] ++ [posts],
          extended.outputs.find? (Naming.withExtension file.name Options.usual.extension) =
            conversion.outputs.find?
              (Naming.withExtension file.name Options.usual.extension)) ∧
        extended.entities.filter
          (fun entity => entity.binding ∈ conversion.entities.map (·.binding)) =
          conversion.entities := by
  intro users tags posts
  obtain ⟨modules, parsed, hmodules, hparsed, hshares⟩ :
      ∃ modules parsed, Conversion.modules Syntax.parser ([users] ++ [posts]) = .ok modules ∧
        tags.parse Syntax.parser = .ok parsed ∧ Builders.usual.SharesNothing modules parsed :=
    exists_modules_of_any (by decide +kernel)
  have hnames : ∀ file ∈ [users] ++ [posts], file.name ≠ tags.name := by decide +kernel
  have houtputs : ∀ file ∈ [users] ++ [posts],
      Naming.withExtension file.name Options.usual.extension ≠
        Naming.withExtension tags.name Options.usual.extension := by decide +kernel
  exact ⟨modules, parsed, hmodules, hparsed, hshares, hnames, houtputs,
    ofFiles_insert hmodules hparsed hshares hnames houtputs⟩

end EntityModel.Conversion
