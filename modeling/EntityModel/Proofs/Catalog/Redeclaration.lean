import EntityModel.Proofs.Catalog.Declarations
import EntityModel.Proofs.Catalog.Operations

/-!
# Variables that are declared again

A table variable has one entity, which stands where its first declaration does. The entity takes
its names and its file from the last declaration of the variable, and its columns, keys and indices
from the first one, under the enumerations of all files.
-/

namespace EntityModel

/-- Whether nothing but the names of an entity is known. -/
def Entity.IsBare (entity : Entity) : Prop :=
  entity = Entity.bare entity.name entity.tableName entity.binding entity.fileName

namespace Builders

variable (builders : Builders) {modules : List Module}

/-- Whether a table is the first that files declare of its variable. -/
def IsFirstTable (modules : List Module) (table : TableDeclaration) : Prop :=
  (builders.tablesIn modules).find? (·.binding = table.binding) = some table

/-- Whether a table is the last that files declare of its variable, and some declarations are those
before it. -/
def IsLastTable (modules : List Module) (before : List (String × Declaration))
    (table : TableDeclaration) : Prop :=
  ∃ declaration after, Module.declarationsOf modules = before ++ declaration :: after ∧
    builders.table? declaration = some table ∧
    ∀ later ∈ after.filterMap builders.table?, later.binding ≠ table.binding

theorem exists_isFirstTable {binding : String}
    (hdeclared : binding ∈ (builders.tablesIn modules).map (·.binding)) :
    ∃ first, builders.IsFirstTable modules first ∧ first.binding = binding := by
  obtain ⟨table, hmem, rfl⟩ := List.mem_map.mp hdeclared
  have hsome : ((builders.tablesIn modules).find? (·.binding = table.binding)).isSome = true :=
    List.find?_isSome.mpr ⟨table, hmem, decide_eq_true rfl⟩
  obtain ⟨first, hfirst⟩ := Option.isSome_iff_exists.mp hsome
  have hbinding : first.binding = table.binding := by simpa using List.find?_some hfirst
  refine ⟨first, ?_, hbinding⟩
  rw [IsFirstTable, hbinding]
  exact hfirst

theorem exists_isLastTable {binding : String}
    (hdeclared : binding ∈ (builders.tablesIn modules).map (·.binding)) :
    ∃ before last, builders.IsLastTable modules before last ∧ last.binding = binding := by
  unfold IsLastTable
  unfold tablesIn at hdeclared
  generalize Module.declarationsOf modules = declarations at hdeclared ⊢
  induction declarations using List.reverseRecOn with
  | nil => cases hdeclared
  | append_singleton declarations declaration ih =>
      by_cases hlast : ∃ table, builders.table? declaration = some table ∧ table.binding = binding
      · obtain ⟨table, htable, hbinding⟩ := hlast
        exact ⟨declarations, table, ⟨declaration, [], rfl, htable, by simp⟩, hbinding⟩
      · -- The last declaration is of another variable, so it may stand after the one that is found.
        rw [List.filterMap_append, List.map_append, List.mem_append] at hdeclared
        have hbefore := hdeclared.resolve_right fun hmem => by
          obtain ⟨table, htable, hbinding⟩ := List.mem_map.mp hmem
          obtain ⟨_, hsingle, htable⟩ := List.mem_filterMap.mp htable
          rw [List.mem_singleton.mp hsingle] at htable
          exact hlast ⟨table, htable, hbinding⟩
        obtain ⟨before, last, ⟨found, after, hsplit, hfound, hafter⟩, hbinding⟩ := ih hbefore
        refine ⟨before, last, ⟨found, after ++ [declaration], by simp [hsplit], hfound, ?_⟩,
          hbinding⟩
        intro later hmem
        rw [List.filterMap_append, List.mem_append] at hmem
        rcases hmem with hmem | hmem
        · exact hafter later hmem
        · obtain ⟨_, hsingle, hlater⟩ := List.mem_filterMap.mp hmem
          rw [List.mem_singleton.mp hsingle] at hlater
          exact fun heq => hlast ⟨later, hlater, heq.trans hbinding⟩

end Builders

namespace Catalog

variable {catalog : Catalog} (builders : Builders)

/-! ## Entities by their variables -/

/-- Changing entities but not their variables changes what the variables stand for. -/
theorem entityFor?_of_entities_eq {other : Catalog} {change : Entity → Entity}
    (hentities : other.entities = catalog.entities.map change)
    (hchange : ∀ entity, (change entity).binding = entity.binding) (binding : String) :
    other.entityFor? binding = (catalog.entityFor? binding).map change := by
  rw [entityFor?, hentities, List.find?_map]
  simp only [Function.comp_def, hchange]
  rfl

theorem entityFor?_modify_self {binding : String} {change : Entity → Entity}
    (hchange : ∀ entity, (change entity).binding = entity.binding) :
    (catalog.modify binding change).entityFor? binding =
      (catalog.entityFor? binding).map change := by
  rw [@entityFor?_of_entities_eq catalog _ _ rfl]
  · cases hfound : catalog.entityFor? binding with
    | none => rfl
    | some entity => simp [(entityFor?_eq_some hfound).2]
  · intro entity
    split
    · exact hchange entity
    · rfl

theorem entityFor?_modify_of_ne {binding other : String} {change : Entity → Entity}
    (hchange : ∀ entity, (change entity).binding = entity.binding) (hne : other ≠ binding) :
    (catalog.modify binding change).entityFor? other = catalog.entityFor? other := by
  rw [@entityFor?_of_entities_eq catalog _ _ rfl]
  · cases hfound : catalog.entityFor? other with
    | none => rfl
    | some entity => simp [(entityFor?_eq_some hfound).2, hne]
  · intro entity
    split
    · exact hchange entity
    · rfl

/-- A table that is registered gives its entity the free name, and the rest of what it says. -/
theorem entityFor?_registerTable_self (hbare : ∀ entity ∈ catalog.entities, entity.IsBare)
    (binding wanted tableName fileName : String) :
    (catalog.registerTable binding wanted tableName fileName).entityFor? binding =
      some (Entity.bare (catalog.freeName binding wanted) tableName binding fileName) := by
  unfold registerTable
  dsimp only
  split
  next hknown =>
    obtain ⟨entity, hfound⟩ := Option.isSome_iff_exists.mp hknown
    obtain ⟨hmem, hbinding⟩ := entityFor?_eq_some hfound
    have hentity := hbare entity hmem
    rw [entityFor?_modify_self, hfound, Option.map_some, hentity, hbinding]
    · rfl
    · exact fun _ => rfl
  next hnew =>
    rw [Option.not_isSome_iff_eq_none, entityFor?] at hnew
    simp [entityFor?, List.find?_append, hnew, Entity.bare]

theorem entityFor?_registerTable_of_ne {binding other : String} (hne : other ≠ binding)
    (wanted tableName fileName : String) :
    (catalog.registerTable binding wanted tableName fileName).entityFor? other =
      catalog.entityFor? other := by
  unfold registerTable
  dsimp only
  split
  · exact entityFor?_modify_of_ne (fun _ => rfl) hne
  · simp [entityFor?, List.find?_append, Entity.bare, hne.symm]

/-- Declarations that declare no table of a variable do not change its entity. -/
theorem entityFor?_foldl_registerDeclaration_of_ne {binding : String}
    {declarations : List (String × Declaration)}
    (hother : ∀ table ∈ declarations.filterMap builders.table?, table.binding ≠ binding) :
    (declarations.foldl (registerDeclaration builders) catalog).entityFor? binding =
      catalog.entityFor? binding := by
  induction declarations generalizing catalog with
  | nil => rfl
  | cons declaration declarations ih =>
      rw [List.foldl_cons, ih fun table hmem => hother table ?_]
      · rw [registerDeclaration_eq]
        cases htable : builders.table? declaration with
        | some table =>
            have hne : table.binding ≠ binding := hother table (by simp [htable])
            exact entityFor?_registerTable_of_ne hne.symm _ _ _
        | none =>
            cases builders.enum? declaration <;> rfl
      · rw [List.filterMap_cons]
        cases builders.table? declaration with
        | none => exact hmem
        | some _ => exact List.mem_cons_of_mem _ hmem

/-! ## Registered declarations -/

/-- What a catalog holds after declarations were registered. -/
structure Registered (declarations : List (String × Declaration)) (catalog : Catalog) : Prop where
  distinct : catalog.Distinct
  /-- Entities stand in the order in which their variables are declared first. -/
  bindings_eq : catalog.entities.map (·.binding) =
    ((declarations.filterMap builders.table?).map (·.binding)).eraseDups
  bare : ∀ entity ∈ catalog.entities, entity.IsBare
  enums_eq : catalog.enums = OrderedMap.ofList (declarations.filterMap builders.enum?)
  populated_eq : catalog.populated = []

namespace Registered

variable {builders} {declarations : List (String × Declaration)}

theorem empty : Registered builders [] empty where
  distinct := Distinct.empty
  bindings_eq := rfl
  bare _ hmem := absurd hmem List.not_mem_nil
  enums_eq := rfl
  populated_eq := rfl

theorem bare_registerTable (hbare : ∀ entity ∈ catalog.entities, entity.IsBare)
    (binding wanted tableName fileName : String) :
    ∀ entity ∈ (catalog.registerTable binding wanted tableName fileName).entities,
      entity.IsBare := by
  intro entity hmem
  unfold registerTable at hmem
  dsimp only at hmem
  split at hmem
  · obtain ⟨former, hformer, rfl⟩ := List.mem_map.mp hmem
    have hold := hbare former hformer
    split
    · rw [Entity.IsBare, hold]
      rfl
    · exact hold
  · rcases List.mem_append.mp hmem with hformer | hnew
    · exact hbare entity hformer
    · rw [List.mem_singleton.mp hnew]
      rfl

/-- One more declaration is registered behind the others. -/
theorem step (hregistered : Registered builders declarations catalog)
    (declaration : String × Declaration) :
    Registered builders (declarations ++ [declaration])
      (catalog.registerDeclaration builders declaration) := by
  obtain ⟨hdistinct, hbindings, hbare, henums, hpopulated⟩ := hregistered
  rw [registerDeclaration_eq]
  cases htable : builders.table? declaration with
  | some table =>
      have hnone := builders.enum?_eq_none_of_table? htable
      refine ⟨hdistinct.registerTable _ _ _ _, ?_, bare_registerTable hbare _ _ _ _, ?_, ?_⟩
      · have happly := bindings_apply catalog
          (.registerTable table.binding table.wanted table.tableName table.fileName)
        dsimp only [Operation.apply, Operation.registered] at happly
        simp only [happly, hbindings, List.filterMap_append, List.filterMap_cons, htable,
          List.filterMap_nil, List.map_append, List.map_singleton, eraseDups_concat,
          List.mem_eraseDups, List.filter_singleton]
        by_cases hknown :
            table.binding ∈ (declarations.filterMap builders.table?).map (·.binding) <;>
          simp [hknown]
      · rw [List.filterMap_append, List.filterMap_cons, hnone, List.filterMap_nil, List.append_nil]
        unfold registerTable
        dsimp only
        split <;> exact henums
      · unfold registerTable
        dsimp only
        split <;> exact hpopulated
  | none =>
      cases henum : builders.enum? declaration with
      | none => exact ⟨hdistinct, by simpa [htable] using hbindings, hbare,
          by simpa [henum] using henums, hpopulated⟩
      | some enumeration =>
          refine ⟨⟨hdistinct.bindings_nodup, hdistinct.names_nodup⟩,
            by simpa [htable, registerEnum] using hbindings, hbare, ?_, hpopulated⟩
          simp [registerEnum, henums, henum, OrderedMap.ofList]

end Registered

theorem registered_foldl (declarations : List (String × Declaration)) :
    Registered builders declarations
      (declarations.foldl (registerDeclaration builders) empty) := by
  induction declarations using List.reverseRecOn with
  | nil => exact Registered.empty
  | append_singleton declarations declaration ih =>
      rw [List.foldl_append, List.foldl_cons, List.foldl_nil]
      exact ih.step declaration

theorem registered_register (modules : List Module) :
    Registered builders (Module.declarationsOf modules) (empty.register builders modules) :=
  registered_foldl builders _

/-- The entity of a variable has the names and the file of its last declaration. -/
theorem entityFor?_register {modules : List Module} {before : List (String × Declaration)}
    {last : TableDeclaration} (hlast : builders.IsLastTable modules before last) :
    ∃ name, (before.foldl (registerDeclaration builders) empty).IsGiven last.binding last.wanted
        name ∧
      (empty.register builders modules).entityFor? last.binding =
        some (Entity.bare name last.tableName last.binding last.fileName) := by
  obtain ⟨declaration, after, hsplit, htable, hafter⟩ := hlast
  refine ⟨_, isGiven_freeName _ _ _, ?_⟩
  rw [register, hsplit, List.foldl_append, List.foldl_cons,
    entityFor?_foldl_registerDeclaration_of_ne builders hafter, registerDeclaration_eq, htable]
  exact entityFor?_registerTable_self (registered_foldl builders before).bare _ _ _ _

/-- Where no two tables give the same name, a variable stands for the last table that is declared
as it, under the name that the table gives. -/
theorem entityFor?_foldl_registerDeclaration {declarations : List (String × Declaration)}
    (hnodup : ((declarations.filterMap builders.table?).map (·.wanted)).Nodup) (binding : String) :
    (declarations.foldl (registerDeclaration builders) empty).entityFor? binding =
      ((declarations.filterMap builders.table?).reverse.find? (·.binding = binding)).map
        (·.bare) := by
  induction declarations using List.reverseRecOn generalizing binding with
  | nil => rfl
  | append_singleton declarations declaration ih =>
      rw [List.filterMap_append, List.map_append] at hnodup
      have hregistered := registered_foldl builders declarations
      rw [List.foldl_append, List.foldl_cons, List.foldl_nil, registerDeclaration_eq,
        List.filterMap_append, List.reverse_append]
      cases htable : builders.table? declaration with
      | none =>
          rw [List.filterMap_cons, htable, List.filterMap_nil, List.reverse_nil, List.nil_append,
            ← ih hnodup.of_append_left]
          cases builders.enum? declaration <;> rfl
      | some table =>
          rw [List.filterMap_cons, htable, List.filterMap_nil, List.map_singleton,
            ← List.concat_eq_append, List.nodup_concat] at hnodup
          rw [List.filterMap_cons, htable, List.filterMap_nil, List.reverse_singleton,
            List.singleton_append, List.find?_cons]
          dsimp only
          by_cases hbinding : table.binding = binding
          · subst hbinding
            rw [decide_eq_true rfl, entityFor?_registerTable_self hregistered.bare,
              freeName_of_not_mem]
            · rfl
            · -- The names so far are given by earlier tables, so that of this one is free.
              intro hwanted
              obtain ⟨entity, hmem, hname⟩ := List.mem_map.mp hwanted
              have hfound := hregistered.distinct.entityFor?_eq_some_iff.mpr ⟨hmem, rfl⟩
              rw [ih hnodup.2] at hfound
              obtain ⟨former, hformer, rfl⟩ := Option.map_eq_some_iff.mp hfound
              have hmem := List.mem_reverse.mp (List.mem_of_find?_eq_some hformer)
              exact hnodup.1 (hname ▸ List.mem_map_of_mem hmem)
          · rw [decide_eq_false hbinding, entityFor?_registerTable_of_ne (Ne.symm hbinding)]
            exact ih hnodup.2 binding

theorem entityFor?_register_of_nodup {modules : List Module}
    (hnodup : ((builders.tablesIn modules).map (·.wanted)).Nodup) (binding : String) :
    (empty.register builders modules).entityFor? binding =
      ((builders.tablesIn modules).reverse.find? (·.binding = binding)).map (·.bare) :=
  entityFor?_foldl_registerDeclaration builders hnodup binding

/-! ## The catalog of a project -/

theorem entities_collected_eq (modules : List Module) :
    (collected builders modules).entities = (empty.register builders modules).entities.map
      fun entity => entity.readFirst (OrderedMap.ofList (builders.enumsIn modules))
        (builders.tablesIn modules) := by
  have hregistered := registered_register builders modules
  obtain ⟨_, hread, _⟩ := readTables_eq builders _ modules hregistered.populated_eq
  rw [collected, readRelations, addStubs, hread, hregistered.enums_eq]
  rfl

/-- The entities of a project are those that are registered, read from the first declarations of
their variables and given their relations. -/
theorem entities_ofModules (modules : List Module) : (ofModules builders modules).entities =
    (empty.register builders modules).entities.map fun entity =>
      (Relation.pairAll (collected builders modules).stubs).foldl Entity.attached
        (entity.readFirst (OrderedMap.ofList (builders.enumsIn modules))
          (builders.tablesIn modules)) := by
  rw [ofModules_eq_resolve, entities_resolve, entities_collected_eq, List.map_map]
  rfl

theorem map_binding_ofModules (modules : List Module) :
    (ofModules builders modules).entities.map (·.binding) =
      ((builders.tablesIn modules).map (·.binding)).eraseDups := by
  rw [entities_ofModules, List.map_map]
  refine Eq.trans ?_ (registered_register builders modules).bindings_eq
  apply List.map_congr_left
  intro entity _
  obtain ⟨after, hafter⟩ := Entity.exists_foldl_attached_eq
    (entity.readFirst (OrderedMap.ofList (builders.enumsIn modules)) (builders.tablesIn modules))
    (Relation.pairAll (collected builders modules).stubs)
  rw [Function.comp_apply, hafter]
  exact Entity.binding_readFirst _ _ entity

/-- How the entities of a catalog follow from the declarations of files. -/
structure FollowsDeclarations (modules : List Module) (catalog : Catalog) : Prop where
  /-- Each declared variable has one entity, where it is declared first. -/
  bindings_eq : catalog.entities.map (·.binding) =
    ((builders.tablesIn modules).map (·.binding)).eraseDups
  bindings_nodup : (catalog.entities.map (·.binding)).Nodup
  /-- The names and the file are those of the last declaration, as the name is free or not when it
  is registered. All else but the relations is read from the first one. -/
  declared : ∀ binding ∈ (builders.tablesIn modules).map (·.binding),
    ∃ first before last name relations,
      builders.IsFirstTable modules first ∧ first.binding = binding ∧
      builders.IsLastTable modules before last ∧ last.binding = binding ∧
      (before.foldl (registerDeclaration builders) empty).IsGiven binding last.wanted name ∧
      catalog.entityFor? binding = some
        { (Entity.bare name last.tableName binding last.fileName).readFrom
            (OrderedMap.ofList (builders.enumsIn modules)) first.root with
          relations := relations }

/-- A variable that is declared again keeps its place and its columns, and takes the names and the
file of its last declaration. -/
theorem ofModules_followsDeclarations (modules : List Module) :
    FollowsDeclarations builders modules (ofModules builders modules) where
  bindings_eq := map_binding_ofModules builders modules
  bindings_nodup := (awaiting_collected builders modules).distinct_resolve.bindings_nodup
  declared := by
    intro binding hdeclared
    obtain ⟨first, hfirst, rfl⟩ := builders.exists_isFirstTable hdeclared
    obtain ⟨before, last, hlast, hbinding⟩ := builders.exists_isLastTable hdeclared
    obtain ⟨name, hgiven, hentity⟩ := entityFor?_register builders hlast
    rw [hbinding] at hgiven hentity
    obtain ⟨relations, hattached⟩ := Entity.exists_foldl_attached_eq
      ((Entity.bare name last.tableName first.binding last.fileName).readFirst
        (OrderedMap.ofList (builders.enumsIn modules)) (builders.tablesIn modules))
      (Relation.pairAll (collected builders modules).stubs)
    refine ⟨first, before, last, name, relations, hfirst, rfl, hlast, hbinding, hgiven, ?_⟩
    rw [entityFor?_of_entities_eq (entities_ofModules builders modules), hentity, Option.map_some,
      hattached, Entity.readFirst, Entity.bare]
    · dsimp only
      rw [hfirst]
    · intro entity
      obtain ⟨after, hafter⟩ := Entity.exists_foldl_attached_eq
        (entity.readFirst (OrderedMap.ofList (builders.enumsIn modules))
          (builders.tablesIn modules))
        (Relation.pairAll (collected builders modules).stubs)
      rw [hafter]
      exact Entity.binding_readFirst _ _ entity

end Catalog

end EntityModel
