import EntityModel.Proofs.Catalog.Inverse
import EntityModel.Proofs.Catalog.Redeclaration
import EntityModel.Proofs.Conversion.Insertion
import Mathlib.Algebra.BigOperators.Group.List.Basic

/-!
# Entities in their outputs

Every entity of a conversion belongs into the output that is named after its file. An output
declares the entities of one file, and of two files with one output name the later one's output
stays. So the outputs declare every entity once exactly if the files of entities have output names
of their own (`KeepsFilesApart`).
-/

namespace EntityModel

namespace SortedMap

variable {α : Type} {map : SortedMap α} {name : String}

theorem nodup_keys (map : SortedMap α) : map.keys.Nodup := by
  rw [keys, List.Nodup, List.pairwise_map]
  refine map.sorted.imp ?_
  intro first second hlt heq
  rw [heq] at hlt
  exact String.lt_irrefl _ hlt

theorem find?_eq_some_iff {value : α} :
    map.find? name = some value ↔ (name, value) ∈ map.entries :=
  lookup_eq_some_iff_mem map.nodup_keys

theorem mem_keys_ofList {entries : List (String × α)} {value : α}
    (hmem : (name, value) ∈ entries) : name ∈ (ofList entries).keys := by
  have hsome : (entries.reverse.lookup name).isSome = true := by
    rw [List.lookup_isSome_iff]
    exact ⟨(name, value), List.mem_reverse.mpr hmem, beq_self_eq_true name⟩
  obtain ⟨found, hfound⟩ := Option.isSome_iff_exists.mp hsome
  rw [← find?_ofList, find?_eq_some_iff] at hfound
  exact List.mem_map_of_mem hfound

/-- Every entry of the map of a list is one of the list. -/
theorem mem_of_mem_ofList {entries : List (String × α)} {entry : String × α}
    (hentry : entry ∈ (ofList entries).entries) : entry ∈ entries := by
  obtain ⟨name, value⟩ := entry
  rw [← find?_eq_some_iff, find?_ofList] at hentry
  obtain ⟨front, back, hsplit, _⟩ := List.lookup_eq_some_iff.mp hentry
  rw [← List.mem_reverse, hsplit]
  exact List.mem_append_right _ List.mem_cons_self

end SortedMap

/-- Items are those of the groups that keys divide them into, if each item has one of the keys. -/
theorem flatMap_filter_perm {α : Type} (key : α → String) {keys : List String}
    (hnodup : keys.Nodup) (items : List α) (hkeys : ∀ item ∈ items, key item ∈ keys) :
    (keys.flatMap fun name => items.filter fun item => key item = name).Perm items := by
  induction keys generalizing items with
  | nil =>
      obtain rfl : items = [] := List.eq_nil_iff_forall_not_mem.mpr fun item hmem =>
        List.not_mem_nil (hkeys item hmem)
      rfl
  | cons name keys ih =>
      obtain ⟨hname, hnodup⟩ := List.nodup_cons.mp hnodup
      -- The groups of the other keys are those of the items without this key.
      have hothers : (keys.flatMap fun other => items.filter fun item => key item = other) =
          keys.flatMap fun other => (items.filter fun item => !decide (key item = name)).filter
            fun item => key item = other := by
        apply List.flatMap_congr
        intro other hmem
        rw [List.filter_filter]
        apply List.filter_congr
        intro item _
        have hne : other ≠ name := fun heq => hname (heq ▸ hmem)
        by_cases hkey : key item = other
        · simp [hkey, hne]
        · simp [hkey]
      have hrest := ih hnodup (items.filter fun item => !decide (key item = name)) (by
        intro item hmem
        obtain ⟨hitem, hkey⟩ := List.mem_filter.mp hmem
        exact (List.mem_cons.mp (hkeys item hitem)).resolve_left (by simpa using hkey))
      rw [List.flatMap_cons, hothers]
      exact (hrest.append_left _).trans (List.filter_append_perm _ items)

namespace Catalog

variable (builders : Builders) {modules : List Module}

/-- The file of an entity is one of those that declare tables. -/
theorem fileName_mem_of_mem_ofModules {entity : Entity}
    (hmem : entity ∈ (ofModules builders modules).entities) :
    entity.fileName ∈ modules.map (·.fileName) := by
  have hregistered := registered_register builders modules
  have hfiles : (ofModules builders modules).entities.map (·.fileName) =
      (empty.register builders modules).entities.map (·.fileName) := by
    rw [ofModules_eq_resolve, map_entities_resolve _ _ fun _ _ => rfl, entities_collected_eq,
      List.map_map]
    simp [Function.comp_def]
  obtain ⟨bare, hbare, heq⟩ := List.mem_map.mp (hfiles ▸ List.mem_map_of_mem hmem)
  have hdeclared : bare.binding ∈ (builders.tablesIn modules).map (·.binding) := by
    rw [← List.mem_eraseDups, Builders.tablesIn, ← hregistered.bindings_eq]
    exact List.mem_map_of_mem hbare
  obtain ⟨before, last, hlast, hbinding⟩ := builders.exists_isLastTable hdeclared
  obtain ⟨name, _, hfound⟩ := entityFor?_register builders hlast
  have hentity := hregistered.distinct.entityFor?_eq_some_iff.mpr ⟨hbare, hbinding.symm⟩
  obtain rfl := Option.some.inj (hentity.symm.trans hfound)
  obtain ⟨declaration, after, hsplit, htable, _⟩ := hlast
  have hdeclaration : declaration ∈ Module.declarationsOf modules := by
    rw [hsplit]
    exact List.mem_append_right _ List.mem_cons_self
  obtain ⟨module, hmodule, hdeclaration⟩ := List.mem_flatMap.mp hdeclaration
  obtain ⟨_, _, rfl⟩ := List.mem_map.mp hdeclaration
  obtain ⟨_, _, rfl⟩ := Option.map_eq_some_iff.mp htable
  rw [← heq]
  exact List.mem_map_of_mem hmodule

end Catalog

namespace Entity

/-- The name of the output that an entity belongs into. -/
def outputName (extension : String) (entity : Entity) : String :=
  Naming.withExtension entity.fileName extension

end Entity

namespace Schema

/-- What the schema of an entity takes up in the text of a file. -/
def blockLength (entity : Entity) : Nat :=
  ("\n" ++ typeComment entity ++ "\n" ++ entityText entity).length

theorem blockLength_pos (entity : Entity) : 0 < blockLength entity := by
  have hbreak : "\n".length = 1 := by decide
  rw [blockLength, String.append_assoc, String.append_assoc, String.length_append, hbreak]
  omega

theorem length_join_blocks (entities : List Entity) :
    (String.join (entities.map fun entity =>
      "\n" ++ typeComment entity ++ "\n" ++ entityText entity)).length =
      (entities.map blockLength).sum := by
  induction entities with
  | nil => rfl
  | cons entity entities ih =>
      rw [List.map_cons, String.join_cons, String.length_append, ih]
      rfl

/-- Entities whose text is that of some of them have no others. -/
theorem eq_nil_of_fileText_eq {entities part others : List Entity}
    (hperm : entities.Perm (part ++ others)) (htext : fileText entities = fileText part) :
    others = [] := by
  have hjoined := (String.append_right_inj _).mp htext
  have hsum := congrArg String.length hjoined
  rw [length_join_blocks, length_join_blocks, (hperm.map blockLength).sum_eq, List.map_append,
    List.sum_append] at hsum
  cases others with
  | nil => rfl
  | cons entity others =>
      have hpos := blockLength_pos entity
      rw [List.map_cons, List.sum_cons] at hsum
      omega

end Schema

namespace Conversion

/-- Whether the outputs declare every entity once, in the output that is named after its file: each
output is the text of a block of such entities, and all blocks together are the entities. -/
def DeclaresEachOnce (conversion : Conversion) (extension : String) : Prop :=
  ∃ blocks : List (String × List Entity),
    conversion.outputs.entries =
      blocks.map (fun (name, entities) => (name, Schema.fileText entities)) ∧
    (∀ block ∈ blocks, ∀ entity ∈ block.2, entity.outputName extension = block.1) ∧
    (blocks.flatMap Prod.snd).Perm conversion.entities

/-- Whether entities of different files belong into different outputs. -/
def KeepsFilesApart (conversion : Conversion) (extension : String) : Prop :=
  ∀ first ∈ conversion.entities, ∀ second ∈ conversion.entities,
    first.outputName extension = second.outputName extension → first.fileName = second.fileName

instance (conversion : Conversion) (extension : String) :
    Decidable (conversion.KeepsFilesApart extension) :=
  inferInstanceAs (Decidable (∀ first ∈ conversion.entities, ∀ second ∈ conversion.entities,
    first.outputName extension = second.outputName extension → first.fileName = second.fileName))

variable {parser : TreeParser} {catalog : Catalog} {extension : String} {files : List SourceFile}

/-- Every output declares the entities of one file, after which it is named. -/
theorem exists_file_of_mem_outputsOf {name text : String}
    (hmem : (name, text) ∈ (outputsOf catalog extension files).entries) :
    ∃ file ∈ files, catalog.entitiesIn file.name ≠ [] ∧
      name = Naming.withExtension file.name extension ∧
      text = Schema.fileText (catalog.entitiesIn file.name) := by
  obtain ⟨file, hfile, houtput⟩ := List.mem_filterMap.mp (SortedMap.mem_of_mem_ofList hmem)
  obtain ⟨hsome, heq⟩ := output?_eq_some_iff.mp houtput
  exact ⟨file, hfile, hsome, congrArg Prod.fst heq, congrArg Prod.snd heq⟩

/-- There is an output for every entity that comes from a file. -/
theorem outputName_mem_keys {entity : Entity} (hentity : entity ∈ catalog.entities)
    (hfile : entity.fileName ∈ files.map (·.name)) :
    entity.outputName extension ∈ (outputsOf catalog extension files).keys := by
  obtain ⟨file, hmem, hname⟩ := List.mem_map.mp hfile
  have hsome : catalog.entitiesIn file.name ≠ [] :=
    List.ne_nil_of_mem (List.mem_filter.mpr ⟨hentity, decide_eq_true hname.symm⟩)
  rw [Entity.outputName, ← hname]
  exact SortedMap.mem_keys_ofList
    (List.mem_filterMap.mpr ⟨file, hmem, output?_eq_some_iff.mpr ⟨hsome, rfl⟩⟩)

theorem fileName_of_mem_modules {modules : List Module}
    (hmodules : Conversion.modules parser files = .ok modules) :
    modules.map (·.fileName) = files.map (·.name) := by
  induction files generalizing modules with
  | nil =>
      cases hmodules
      rfl
  | cons file files ih =>
      obtain ⟨parsed, others, hparsed, hothers, rfl⟩ := modules_cons_eq_ok_iff.mp hmodules
      rw [List.map_cons, List.map_cons, ih hothers, fileName_of_parse hparsed]

/-- What a conversion consists of, and that its entities come from its files. -/
theorem exists_catalog_of_ofFiles {options : Options} {conversion : Conversion}
    (hconversion : ofFiles parser options files = .ok conversion) :
    ∃ catalog, conversion = ⟨outputsOf catalog options.extension files, catalog.entities⟩ ∧
      ∀ entity ∈ catalog.entities, entity.fileName ∈ files.map (·.name) := by
  cases hmodules : Conversion.modules parser files with
  | error failure =>
      rw [ofFiles, hmodules] at hconversion
      cases hconversion
  | ok modules =>
      rw [ofFiles_of_modules hmodules] at hconversion
      cases hconversion
      refine ⟨_, rfl, fun entity hmem => ?_⟩
      rw [← fileName_of_mem_modules hmodules]
      exact Catalog.fileName_mem_of_mem_ofModules _ hmem

/-- The entities of a file are those that belong into its output, unless that of another file has
the same name. -/
theorem filter_outputName_eq {fileName : String} (hsome : catalog.entitiesIn fileName ≠ [])
    (hapart : ∀ first ∈ catalog.entities, ∀ second ∈ catalog.entities,
      first.outputName extension = second.outputName extension →
      first.fileName = second.fileName) :
    catalog.entities.filter (fun entity =>
      entity.outputName extension = Naming.withExtension fileName extension) =
      catalog.entitiesIn fileName := by
  obtain ⟨one, hone⟩ := List.exists_mem_of_ne_nil _ hsome
  obtain ⟨hmem, hfile⟩ := List.mem_filter.mp hone
  obtain rfl := of_decide_eq_true hfile
  apply List.filter_congr
  intro entity hentity
  rw [decide_eq_decide]
  exact ⟨hapart entity hentity one hmem, congrArg (Naming.withExtension · extension)⟩

theorem declaresEachOnce_of_keepsFilesApart
    (hfiles : ∀ entity ∈ catalog.entities, entity.fileName ∈ files.map (·.name))
    (hapart : KeepsFilesApart ⟨outputsOf catalog extension files, catalog.entities⟩ extension) :
    DeclaresEachOnce ⟨outputsOf catalog extension files, catalog.entities⟩ extension := by
  refine ⟨(outputsOf catalog extension files).keys.map fun name =>
    (name, catalog.entities.filter fun entity => entity.outputName extension = name), ?_, ?_, ?_⟩
  · rw [SortedMap.keys, List.map_map, List.map_map]
    refine (List.map_id _).symm.trans (List.map_congr_left fun (name, text) hmem => ?_)
    obtain ⟨file, _, hsome, rfl, rfl⟩ := exists_file_of_mem_outputsOf hmem
    simp only [Function.comp_apply, filter_outputName_eq hsome hapart]
    rfl
  · simp
  · rw [List.flatMap_map]
    exact flatMap_filter_perm _ (SortedMap.nodup_keys _) _ fun entity hentity =>
      outputName_mem_keys hentity (hfiles entity hentity)

/-- A block of one name is all that belongs there, if the names of blocks are distinct. -/
theorem block_perm_filter {blocks : List (String × List Entity)} {entities : List Entity}
    (hnodup : (blocks.map Prod.fst).Nodup)
    (hnames : ∀ block ∈ blocks, ∀ entity ∈ block.2, entity.outputName extension = block.1)
    (hperm : (blocks.flatMap Prod.snd).Perm entities) {name : String} {block : List Entity}
    (hmem : (name, block) ∈ blocks) :
    block.Perm (entities.filter fun entity => entity.outputName extension = name) := by
  obtain ⟨front, back, rfl⟩ := List.append_of_mem hmem
  rw [List.map_append, List.map_cons, List.nodup_middle, List.nodup_cons, List.mem_append] at hnodup
  have hothers : ∀ others : List (String × List Entity),
      (∀ other ∈ others, other ∈ front ++ (name, block) :: back) →
      name ∉ others.map Prod.fst → (others.flatMap Prod.snd).filter
        (fun entity => entity.outputName extension = name) = [] := by
    intro others hothers hname
    rw [List.filter_eq_nil_iff]
    intro entity hentity
    obtain ⟨other, hother, hentity⟩ := List.mem_flatMap.mp hentity
    rw [decide_eq_true_eq, hnames other (hothers other hother) entity hentity]
    exact fun heq => hname (heq ▸ List.mem_map_of_mem hother)
  have hblock : block.filter (fun entity => entity.outputName extension = name) = block :=
    List.filter_eq_self.mpr fun entity hentity =>
      decide_eq_true (hnames _ hmem entity hentity)
  have hkept := hperm.filter fun entity => entity.outputName extension = name
  rw [List.flatMap_append, List.flatMap_cons, List.filter_append, List.filter_append,
    hothers front (fun other hother => List.mem_append_left _ hother)
      (fun hname => hnodup.1 (Or.inl hname)),
    hothers back (fun other hother => List.mem_append_right _ (List.mem_cons_of_mem _ hother))
      (fun hname => hnodup.1 (Or.inr hname)), hblock, List.nil_append, List.append_nil] at hkept
  exact hkept

theorem keepsFilesApart_of_declaresEachOnce
    (hdeclares : DeclaresEachOnce ⟨outputsOf catalog extension files, catalog.entities⟩
      extension) :
    KeepsFilesApart ⟨outputsOf catalog extension files, catalog.entities⟩ extension := by
  obtain ⟨blocks, houtputs, hnames, hperm⟩ := hdeclares
  dsimp only at houtputs hperm
  have hnodup : (blocks.map Prod.fst).Nodup := by
    have hkeys := SortedMap.nodup_keys (outputsOf catalog extension files)
    rw [SortedMap.keys, houtputs, List.map_map] at hkeys
    exact hkeys
  intro first hfirst second hsecond heq
  obtain ⟨⟨name, block⟩, hblock, hmem⟩ := List.mem_flatMap.mp (hperm.mem_iff.mpr hfirst)
  have hfirstName : first.outputName extension = name := hnames _ hblock _ hmem
  have hentry : (name, Schema.fileText block) ∈
      (outputsOf catalog extension files).entries := by
    rw [houtputs]
    exact List.mem_map_of_mem hblock
  obtain ⟨file, _, _, hname, htext⟩ := exists_file_of_mem_outputsOf hentry
  have hall := block_perm_filter hnodup hnames hperm hblock
  have hsplit := (List.filter_append_perm (fun entity : Entity => entity.fileName = file.name)
    (catalog.entities.filter fun entity => entity.outputName extension = name)).symm
  have hpart : (catalog.entities.filter fun entity => entity.outputName extension = name).filter
      (fun entity => entity.fileName = file.name) = catalog.entitiesIn file.name := by
    rw [List.filter_filter]
    apply List.filter_congr
    intro entity _
    by_cases hfile : entity.fileName = file.name <;> simp [hfile, hname, Entity.outputName]
  -- The output declares the entities of one file, so no other entity belongs into it.
  have hnone := Schema.eq_nil_of_fileText_eq (hall.trans hsplit) (by rw [htext, hpart])
  have hfile : ∀ entity ∈ catalog.entities, entity.outputName extension = name →
      entity.fileName = file.name := by
    intro entity hentity hbelongs
    by_contra hne
    have hmem : entity ∈ ([] : List Entity) := by
      rw [← hnone]
      simp [hentity, hbelongs, hne]
    cases hmem
  rw [hfile first hfirst hfirstName, hfile second hsecond (heq.symm.trans hfirstName)]

/-- Whether files convert to something with a property can be checked by converting them. -/
theorem exists_ofFiles_of_any {options : Options} {holds : Conversion → Prop}
    [DecidablePred holds]
    (hchecked : ((ofFiles parser options files).toOption.any fun conversion =>
      decide (holds conversion)) = true) :
    ∃ conversion, ofFiles parser options files = .ok conversion ∧ holds conversion := by
  cases hconversion : ofFiles parser options files with
  | error failure =>
      rw [hconversion] at hchecked
      cases hchecked
  | ok conversion =>
      rw [hconversion] at hchecked
      exact ⟨conversion, rfl, of_decide_eq_true hchecked⟩

/-- No entity is lost when the outputs of files are named, and none is declared twice or in another
file's output, exactly if no two files that declare entities have one output name. -/
theorem declaresEachOnce_iff_keepsFilesApart {options : Options} {conversion : Conversion}
    (hconversion : ofFiles parser options files = .ok conversion) :
    conversion.DeclaresEachOnce options.extension ↔
      conversion.KeepsFilesApart options.extension := by
  obtain ⟨catalog, rfl, hfiles⟩ := exists_catalog_of_ofFiles hconversion
  exact ⟨keepsFilesApart_of_declaresEachOnce, declaresEachOnce_of_keepsFilesApart hfiles⟩

/-- Users and posts stand in files of their own names. -/
theorem declaresEachOnce_usersAndPosts :
    let users : SourceFile := ⟨"users.ts", "const users=pgTable(\"users\",\x7b\x7d);"⟩
    let posts : SourceFile := ⟨"posts.ts", "const posts=pgTable(\"posts\",\x7b\x7d);"⟩
    ∃ conversion, ofFiles Syntax.parser Options.usual [users, posts] = .ok conversion ∧
      conversion.KeepsFilesApart Options.usual.extension ∧
      conversion.DeclaresEachOnce Options.usual.extension := by
  intro users posts
  obtain ⟨conversion, hconversion, hapart⟩ : ∃ conversion,
      ofFiles Syntax.parser Options.usual [users, posts] = .ok conversion ∧
        conversion.KeepsFilesApart Options.usual.extension :=
    exists_ofFiles_of_any (by decide +kernel)
  exact ⟨conversion, hconversion, hapart,
    (declaresEachOnce_iff_keepsFilesApart hconversion).mpr hapart⟩

/-- Users and posts stand in files whose names differ in their extensions only, so that the output
of the posts takes the place of that of the users. -/
theorem not_declaresEachOnce_oneStem :
    let users : SourceFile := ⟨"blog.ts", "const users=pgTable(\"users\",\x7b\x7d);"⟩
    let posts : SourceFile := ⟨"blog.mts", "const posts=pgTable(\"posts\",\x7b\x7d);"⟩
    ∃ conversion, ofFiles Syntax.parser Options.usual [users, posts] = .ok conversion ∧
      ¬ conversion.DeclaresEachOnce Options.usual.extension := by
  intro users posts
  obtain ⟨conversion, hconversion, hclash⟩ : ∃ conversion,
      ofFiles Syntax.parser Options.usual [users, posts] = .ok conversion ∧
        ¬ conversion.KeepsFilesApart Options.usual.extension :=
    exists_ofFiles_of_any (by decide +kernel)
  refine ⟨conversion, hconversion, fun hdeclares => hclash ?_⟩
  obtain ⟨catalog, rfl, _⟩ := exists_catalog_of_ofFiles hconversion
  exact keepsFilesApart_of_declaresEachOnce hdeclares

end Conversion

end EntityModel
