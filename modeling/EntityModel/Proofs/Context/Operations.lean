import EntityModel.Proofs.Context.Refinement

/-!
# Runs of operations on a context

A context is built by operations, in any order and any number. After every run of them index and
entities are in step, entities are found by their table variables and by their names
(`Consistent`), and registering a table changes nothing but the names and the file of one entity,
or adds a bare one (`Registers`).
-/

namespace EntityModel.Context

open Catalog (Operation)

/-- What an operation makes of a context. -/
def apply (context : Context) : Operation → Context
  | .registerTable binding wanted tableName fileName =>
    context.registerTable binding wanted tableName fileName
  | .registerEnum binding values => context.registerEnum binding values
  | .markPopulated binding => (context.markPopulated binding).2
  | .setColumns binding columns =>
    context.modify binding fun entity => { entity with columns := columns }
  | .addExtras binding extras => context.modify binding (·.withExtras extras)
  | .addStubs stubs => context.addStubs stubs
  | .readRelations modules => context.readRelations modules
  | .resolve => context.resolve

/-- The context that operations leave behind. -/
def run (operations : List Operation) : Context := operations.foldl apply empty

/-- What holds of a context after some table variables were registered, in their order. -/
structure Consistent (context : Context) (registered : List String) : Prop where
  /-- The index holds the positions at which entities stand, and no others. -/
  inStep : context.InStep
  names_nodup : (context.entities.map (·.name)).Nodup
  bindings_nodup : (context.entities.map (·.binding)).Nodup
  /-- Entities stand in the order in which their variables first came. -/
  bindings_eq : context.entities.map (·.binding) = registered.eraseDups
  entityFor?_isSome_iff : ∀ binding,
    (context.entityFor? binding).isSome = true ↔ binding ∈ registered
  entityFor?_eq_some_iff : ∀ binding entity, context.entityFor? binding = some entity ↔
    entity ∈ context.entities ∧ entity.binding = binding
  entityNamed?_eq : ∀ entity ∈ context.entities, context.entityNamed? entity.name = some entity

/-- What registering a table makes of a context. -/
structure Registers (before after : Context) (binding wanted tableName fileName : String) :
    Prop where
  given : ∃ name, before.catalog.IsGiven binding wanted name ∧
    ((∃ front entity back, before.entities = front ++ entity :: back ∧ entity.binding = binding ∧
        after.entities = front ++
          { entity with name := name, tableName := tableName, fileName := fileName } :: back ∧
        after.positions = before.positions) ∨
      ((∀ entity ∈ before.entities, entity.binding ≠ binding) ∧
        after.entities = before.entities ++ [Entity.bare name tableName binding fileName] ∧
        after.positions = before.positions.insert binding before.entities.length))
  enums_eq : after.enums = before.enums
  populated_eq : after.populated = before.populated
  stubs_eq : after.stubs = before.stubs

variable {context : Context} {catalog : Catalog}

theorem Refines.apply (hrefines : Refines context catalog) (operation : Operation) :
    Refines (context.apply operation) (operation.apply catalog) := by
  cases operation with
  | registerTable binding wanted tableName fileName =>
      exact hrefines.registerTable binding wanted tableName fileName
  | registerEnum binding values => exact hrefines.registerEnum binding values
  | markPopulated binding => exact (hrefines.markPopulated binding).2
  | setColumns binding columns => exact hrefines.modify binding fun _ => rfl
  | addExtras binding extras => exact hrefines.modify binding (·.binding_withExtras extras)
  | addStubs stubs => exact hrefines.addStubs stubs
  | readRelations modules => exact hrefines.readRelations modules
  | resolve => exact hrefines.resolve

/-- Operations keep index and entities in step, and make of the catalog what they make of it by
searching. -/
theorem refines_run (operations : List Operation) :
    Refines (run operations) (Catalog.run operations) :=
  List.foldl_rel Refines.empty fun operation _ _ _ hrefines => hrefines.apply operation

/-- A position that the index holds is one at which an entity stands. -/
theorem InStep.entities_modify (hstep : context.InStep) {binding : String} {position : Nat}
    (hfind : context.positions.find? binding = some position) :
    ∃ front entity back, context.entities = front ++ entity :: back ∧ entity.binding = binding ∧
      ∀ change, context.entities.modify position change = front ++ change entity :: back := by
  obtain ⟨entity, hat, hbinding⟩ := hstep.exists_of_find? hfind
  obtain ⟨hlt, rfl⟩ := List.getElem?_eq_some_iff.mp hat
  refine ⟨context.entities.take position, _, context.entities.drop (position + 1), ?_, hbinding,
    fun change => List.modify_eq_take_cons_drop hlt⟩
  rw [List.getElem_cons_drop, List.take_append_drop]

theorem InStep.registers (hstep : context.InStep) (binding wanted tableName fileName : String) :
    Registers context (context.registerTable binding wanted tableName fileName) binding wanted
      tableName fileName := by
  have hgiven := Catalog.isGiven_freeName context.catalog binding wanted
  rw [← hstep.freeName_eq] at hgiven
  unfold Context.registerTable
  dsimp only
  cases hfind : context.positions.find? binding with
  | some position =>
      rw [hfind] at hgiven
      obtain ⟨front, entity, back, hentities, hbinding, hmodify⟩ := hstep.entities_modify hfind
      exact ⟨⟨_, hgiven, Or.inl ⟨front, entity, back, hentities, hbinding, hmodify _, rfl⟩⟩,
        rfl, rfl, rfl⟩
  | none =>
      rw [hfind] at hgiven
      exact ⟨⟨_, hgiven, Or.inr ⟨hstep.ne_of_find?_eq_none hfind, rfl, rfl⟩⟩, rfl, rfl, rfl⟩

/-- Names and variables that are distinct let entities be found by them. -/
theorem Refines.consistent (hrefines : Refines context catalog) (hdistinct : catalog.Distinct)
    {registered : List String}
    (hbindings : catalog.entities.map (·.binding) = registered.eraseDups) :
    context.Consistent registered := by
  obtain ⟨hstep, rfl⟩ := hrefines
  exact {
    inStep := hstep
    names_nodup := hdistinct.names_nodup
    bindings_nodup := hdistinct.bindings_nodup
    bindings_eq := hbindings
    entityFor?_isSome_iff := fun binding => by
      rw [hstep.entityFor?_eq, Catalog.entityFor?_isSome_iff, hbindings, List.mem_eraseDups]
    entityFor?_eq_some_iff := fun binding entity => by
      rw [hstep.entityFor?_eq]
      exact hdistinct.entityFor?_eq_some_iff
    entityNamed?_eq := fun _ hmem =>
      Catalog.find?_eq_some_of_nodup_map hdistinct.names_nodup hmem }

/-- After any operations index and entities are in step, entities are found by their variables and
names, and registering a table changes nothing but one entity. -/
theorem run_consistent (operations : List Operation) :
    (run operations).Consistent (operations.flatMap Operation.registered) ∧
      ∀ binding wanted tableName fileName, Registers (run operations)
        ((run operations).registerTable binding wanted tableName fileName) binding wanted
        tableName fileName :=
  have hrefines := refines_run operations
  ⟨hrefines.consistent (Catalog.distinct_run operations) (Catalog.bindings_run operations),
    hrefines.inStep.registers⟩

end EntityModel.Context
