import EntityModel.Proofs.Catalog.Reading
import Mathlib.Data.List.Induction

/-!
# What declarations contribute

A declaration declares a table, an enumeration, or nothing that a catalog keeps. Each entity reads
its columns and constraints from the first declaration of its table variable, under the
enumerations of all declarations. Where no table variable is declared twice and no two tables give
the same name, the entities are the tables in their order.
-/

namespace EntityModel

/-- The declaration of a table: its file, its variable and the call that builds it. -/
structure TableDeclaration where
  fileName : String
  binding : String
  root : Frame

namespace TableDeclaration

/-- The name that the entity of the table gets, unless another one has it. -/
def wanted (table : TableDeclaration) : String := entityName table.binding (table.root.arg? 0)

def tableName (table : TableDeclaration) : String :=
  ((table.root.arg? 0).bind Expr.string?).getD table.binding

/-- The entity of the table before its columns are read. -/
def bare (table : TableDeclaration) : Entity :=
  Entity.bare table.wanted table.tableName table.binding table.fileName

/-- The entity of the table, its columns read under enumerations. -/
def entity (enums : Enumerations) (table : TableDeclaration) : Entity :=
  table.bare.readFrom enums table.root

end TableDeclaration

namespace Builders

/-- The table that a declaration of a file declares, if it declares one. -/
def table? (builders : Builders) : String × Declaration → Option TableDeclaration
  | (fileName, declaration) =>
    (declaration.init.rootFrame?.filter fun root => builders.tables.contains root.name).map
      (⟨fileName, declaration.name, ·⟩)

/-- The variable and the values of the enumeration that a declaration declares, if it declares
one. -/
def enum? (builders : Builders) : String × Declaration → Option (String × List String)
  | (_, declaration) =>
    (declaration.init.rootFrame?.filter fun root =>
      !builders.tables.contains root.name && builders.enums.contains root.name).map fun root =>
        (declaration.name, (((root.arg? 1).bind Expr.items?).getD []).filterMap Expr.enumMember?)

/-- What declares a table declares no enumeration. -/
theorem enum?_eq_none_of_table? (builders : Builders) {declaration : String × Declaration}
    {table : TableDeclaration} (htable : builders.table? declaration = some table) :
    builders.enum? declaration = none := by
  obtain ⟨fileName, declaration⟩ := declaration
  simp only [table?, Option.map_eq_some_iff, Option.filter_eq_some_iff] at htable
  obtain ⟨root, ⟨hroot, htables⟩, _⟩ := htable
  simp only [enum?, hroot, Option.filter, htables, Bool.not_true, Bool.false_and]
  rfl

/-- The tables that files declare. -/
def tablesIn (builders : Builders) (modules : List Module) : List TableDeclaration :=
  (Module.declarationsOf modules).filterMap builders.table?

/-- The enumerations that files declare. -/
def enumsIn (builders : Builders) (modules : List Module) : List (String × List String) :=
  (Module.declarationsOf modules).filterMap builders.enum?

/-- Whether no variable is declared by two tables or by two enumerations, and no two tables give
the same name. -/
structure DeclareOnce (builders : Builders) (modules : List Module) : Prop where
  tables_nodup : ((builders.tablesIn modules).map (·.binding)).Nodup
  wanted_nodup : ((builders.tablesIn modules).map (·.wanted)).Nodup
  enums_nodup : ((builders.enumsIn modules).map Prod.fst).Nodup

end Builders

theorem Module.map_declarationsOf (modules : List Module) :
    (declarationsOf modules).map Prod.snd = modules.flatMap (·.declarations) := by
  simp [declarationsOf, List.map_flatMap, Function.comp_def]

namespace Entity

/-- An entity with the columns and constraints of the first declaration of its table variable, if
there is one. -/
def readFirst (enums : Enumerations) (tables : List TableDeclaration) (entity : Entity) : Entity :=
  match tables.find? (·.binding = entity.binding) with
  | some table => entity.readFrom enums table.root
  | none => entity

@[simp] theorem binding_readFirst (enums : Enumerations) (tables : List TableDeclaration)
    (entity : Entity) : (entity.readFirst enums tables).binding = entity.binding := by
  unfold readFirst
  split
  · exact binding_readFrom _ _ _
  · rfl

@[simp] theorem name_readFirst (enums : Enumerations) (tables : List TableDeclaration)
    (entity : Entity) : (entity.readFirst enums tables).name = entity.name := by
  unfold readFirst
  split
  · exact name_readFrom _ _ _
  · rfl

@[simp] theorem fileName_readFirst (enums : Enumerations) (tables : List TableDeclaration)
    (entity : Entity) : (entity.readFirst enums tables).fileName = entity.fileName := by
  unfold readFirst
  split
  · exact fileName_readFrom _ _ _
  · rfl

/-- A further declaration of a variable that was declared before is not read. -/
theorem readFirst_append_of_mem {enums : Enumerations} {tables : List TableDeclaration}
    {table : TableDeclaration} (hmem : table.binding ∈ tables.map (·.binding)) (entity : Entity) :
    entity.readFirst enums (tables ++ [table]) = entity.readFirst enums tables := by
  unfold readFirst
  rw [List.find?_append]
  cases hfound : tables.find? (·.binding = entity.binding) with
  | some _ => rfl
  | none =>
      have hne : table.binding ≠ entity.binding := by
        obtain ⟨former, hformer, heq⟩ := List.mem_map.mp hmem
        have hnot := List.find?_eq_none.mp hfound former hformer
        simpa [heq] using hnot
      simp [hne]

/-- The first declaration of a variable is read into the entity of that variable. -/
theorem readFirst_append_of_not_mem {enums : Enumerations} {tables : List TableDeclaration}
    {table : TableDeclaration} (hnew : table.binding ∉ tables.map (·.binding)) (entity : Entity) :
    entity.readFirst enums (tables ++ [table]) =
      if entity.binding = table.binding then
        (entity.readFirst enums tables).readFrom enums table.root
      else entity.readFirst enums tables := by
  unfold readFirst
  rw [List.find?_append]
  by_cases hbinding : entity.binding = table.binding
  · have hnone : tables.find? (·.binding = table.binding) = none := by
      rw [List.find?_eq_none]
      intro former hformer
      have hne : former.binding ≠ table.binding := fun heq =>
        hnew (heq ▸ List.mem_map_of_mem hformer)
      simpa using hne
    simp [hnone, hbinding]
  · have hne : table.binding ≠ entity.binding := fun heq => hbinding heq.symm
    simp [hbinding, hne]

end Entity

namespace Catalog

variable {catalog : Catalog} (builders : Builders)

theorem registerDeclaration_eq (catalog : Catalog) (declaration : String × Declaration) :
    catalog.registerDeclaration builders declaration =
      match builders.table? declaration, builders.enum? declaration with
      | some table, _ =>
        catalog.registerTable table.binding table.wanted table.tableName table.fileName
      | none, some (binding, values) => catalog.registerEnum binding values
      | none, none => catalog := by
  obtain ⟨fileName, declaration⟩ := declaration
  dsimp only [registerDeclaration, Builders.table?, Builders.enum?]
  cases declaration.init.rootFrame? with
  | none => rfl
  | some root =>
      by_cases htable : root.name ∈ builders.tables <;>
        by_cases henum : root.name ∈ builders.enums <;>
        simp [Option.filter, htable, henum, TableDeclaration.wanted, TableDeclaration.tableName]

theorem tableDeclaration_eq (catalog : Catalog) (declaration : String × Declaration) :
    catalog.tableDeclaration builders declaration.2 =
      match builders.table? declaration with
      | some table =>
        if table.binding ∈ catalog.populated then catalog
        else { catalog with populated := table.binding :: catalog.populated }.modify table.binding
          (·.readFrom catalog.enums table.root)
      | none => catalog := by
  obtain ⟨fileName, declaration⟩ := declaration
  dsimp only [tableDeclaration, Builders.table?]
  cases declaration.init.rootFrame? with
  | none => rfl
  | some root =>
      by_cases htable : root.name ∈ builders.tables
      · by_cases hread : declaration.name ∈ catalog.populated <;>
          simp [Option.filter, htable, markPopulated, hread, readTable_eq]
      · simp [Option.filter, htable]

/-- Reading tables fills each entity from the first declaration of its variable. -/
theorem readTables_eq (catalog : Catalog) (modules : List Module)
    (hfresh : catalog.populated = []) :
    ∃ populated, catalog.readTables builders modules =
      { catalog with
        entities := catalog.entities.map (·.readFirst catalog.enums (builders.tablesIn modules))
        populated := populated } ∧
      ∀ binding, binding ∈ populated ↔
        binding ∈ (builders.tablesIn modules).map (·.binding) := by
  unfold readTables Builders.tablesIn
  rw [← Module.map_declarationsOf, List.foldl_map]
  -- The populated variables are those of the tables before the last declaration.
  induction Module.declarationsOf modules using List.reverseRecOn with
  | nil =>
      refine ⟨[], ?_, by simp⟩
      simp [Entity.readFirst, ← hfresh]
  | append_singleton declarations declaration ih =>
      obtain ⟨populated, hread, hpopulated⟩ := ih
      rw [List.foldl_append, List.foldl_cons, List.foldl_nil, hread, tableDeclaration_eq,
        List.filterMap_append]
      cases htable : builders.table? declaration with
      | none => exact ⟨populated, by simp [htable], by simpa [htable] using hpopulated⟩
      | some table =>
          simp only [List.filterMap_cons, htable, List.filterMap_nil, hpopulated]
          split
          next hmem =>
            refine ⟨populated, ?_, fun binding => ?_⟩
            · simp only [Entity.readFirst_append_of_mem hmem]
            · rw [hpopulated, List.map_append, List.mem_append]
              refine ⟨Or.inl, ?_⟩
              rintro (hformer | hlast)
              · exact hformer
              · rw [List.map_singleton, List.mem_singleton] at hlast
                exact hlast ▸ hmem
          next hnew =>
            refine ⟨table.binding :: populated, ?_, fun binding => ?_⟩
            · simp only [modify, List.map_map, Entity.readFirst_append_of_not_mem hnew]
              simp [Function.comp_def]
            · simp [hpopulated, or_comm]

/-- A table of a new variable that gives a new name gets that name. -/
theorem registerTable_of_new {binding wanted : String} (tableName fileName : String)
    (hbinding : binding ∉ catalog.entities.map (·.binding))
    (hwanted : wanted ∉ catalog.entities.map (·.name)) :
    catalog.registerTable binding wanted tableName fileName = { catalog with
      entities := catalog.entities ++ [Entity.bare wanted tableName binding fileName] } := by
  have hnew : ¬ (catalog.entityFor? binding).isSome = true := by
    rw [entityFor?_isSome_iff]
    exact hbinding
  rw [registerTable, freeName_of_not_mem hwanted, if_neg hnew]

/-- Tables whose variables and names are all different get the names that they give. -/
theorem register_empty {modules : List Module} (hdeclared : builders.DeclareOnce modules) :
    empty.register builders modules =
      ⟨(builders.tablesIn modules).map (·.bare), OrderedMap.ofList (builders.enumsIn modules),
        [], []⟩ := by
  obtain ⟨hbindings, hwanted, _⟩ := hdeclared
  unfold register Builders.enumsIn
  unfold Builders.tablesIn at hbindings hwanted ⊢
  generalize Module.declarationsOf modules = declarations at hbindings hwanted ⊢
  induction declarations using List.reverseRecOn with
  | nil => rfl
  | append_singleton declarations declaration ih =>
      rw [List.filterMap_append, List.map_append] at hbindings hwanted
      rw [List.foldl_append, List.foldl_cons, List.foldl_nil, registerDeclaration_eq,
        ih hbindings.of_append_left hwanted.of_append_left, List.filterMap_append,
        List.filterMap_append]
      cases htable : builders.table? declaration with
      | some table =>
          rw [List.filterMap_cons, htable, List.filterMap_nil, List.map_singleton,
            ← List.concat_eq_append, List.nodup_concat] at hbindings hwanted
          dsimp only
          -- The variable and the name of the last table are new to those before it.
          rw [registerTable_of_new]
          · simp [htable, builders.enum?_eq_none_of_table? htable, TableDeclaration.bare]
          · rw [List.map_map]
            exact hbindings.1
          · rw [List.map_map]
            exact hwanted.1
      | none =>
          cases henum : builders.enum? declaration with
          | none => simp [htable, henum]
          | some enumeration => simp [htable, henum, registerEnum, OrderedMap.ofList]

/-- Where nothing is declared twice, the entities are the tables, each with its own columns. -/
theorem entities_collected {modules : List Module} (hdeclared : builders.DeclareOnce modules) :
    (collected builders modules).entities = (builders.tablesIn modules).map
      (·.entity (OrderedMap.ofList (builders.enumsIn modules))) := by
  obtain ⟨_, hread, _⟩ := readTables_eq builders (empty.register builders modules) modules
    (by rw [register_empty builders hdeclared])
  rw [collected, readRelations, addStubs, hread, register_empty builders hdeclared, List.map_map]
  apply List.map_congr_left
  intro table hmem
  rw [Function.comp_apply, Entity.readFirst, TableDeclaration.bare, Entity.bare]
  dsimp only
  rw [find?_eq_some_of_nodup_map hdeclared.tables_nodup hmem]
  rfl

/-- The relations that wait are those that the declarations declare, in their order. -/
theorem stubs_collected (modules : List Module) : (collected builders modules).stubs =
    (modules.flatMap (·.declarations)).flatMap (collected builders modules).relationsOf := by
  have hnone := ((Unrelated.empty.register builders modules).readTables builders modules).stubs_eq
  rw [collected, readRelations, addStubs, hnone, List.nil_append]
  rfl

end Catalog

end EntityModel
