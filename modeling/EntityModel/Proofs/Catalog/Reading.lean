import EntityModel.Proofs.Catalog.Names
import EntityModel.Proofs.Pairing.Ownership

/-!
# Catalogs before relations are resolved

Registering declarations and reading tables give no relations to entities and leave none waiting
(`Unrelated`). Reading relations leaves each of them waiting as it was declared, under the name and
the table variable of an entity (`Awaiting`).
-/

namespace EntityModel

namespace Entity

/-- A constraint changes nothing but columns and indices. -/
theorem exists_withConstraint_eq (entity : Entity) (constraint : Option String × Expr) :
    ∃ columns indices, entity.withConstraint constraint =
      { entity with columns := columns, indices := indices } := by
  obtain ⟨key, value⟩ := constraint
  dsimp only [withConstraint]
  split
  · exact ⟨_, _, rfl⟩
  · split_ifs <;> exact ⟨_, _, rfl⟩

theorem exists_withExtras_eq (entity : Entity) (extras : Expr) :
    ∃ columns indices, entity.withExtras extras =
      { entity with columns := columns, indices := indices } := by
  unfold withExtras
  apply List.foldlRecOn (motive := fun result : Entity => ∃ columns indices, result =
    { entity with columns := columns, indices := indices })
  · exact ⟨_, _, rfl⟩
  · rintro _ ⟨columns, indices, rfl⟩ constraint _
    obtain ⟨columns', indices', heq⟩ := exists_withConstraint_eq
      { entity with columns := columns, indices := indices } constraint
    exact ⟨columns', indices', heq⟩

@[simp] theorem name_withExtras (entity : Entity) (extras : Expr) :
    (entity.withExtras extras).name = entity.name := by
  obtain ⟨_, _, heq⟩ := exists_withExtras_eq entity extras
  rw [heq]

@[simp] theorem binding_withExtras (entity : Entity) (extras : Expr) :
    (entity.withExtras extras).binding = entity.binding := by
  obtain ⟨_, _, heq⟩ := exists_withExtras_eq entity extras
  rw [heq]

@[simp] theorem fileName_withExtras (entity : Entity) (extras : Expr) :
    (entity.withExtras extras).fileName = entity.fileName := by
  obtain ⟨_, _, heq⟩ := exists_withExtras_eq entity extras
  rw [heq]

@[simp] theorem relations_withExtras (entity : Entity) (extras : Expr) :
    (entity.withExtras extras).relations = entity.relations := by
  obtain ⟨_, _, heq⟩ := exists_withExtras_eq entity extras
  rw [heq]

/-- An entity with the columns and constraints of a call that declares its table. -/
def readFrom (enums : Enumerations) (root : Frame) (entity : Entity) : Entity :=
  let columns :=
    match root.arg? 1 with
    | some definition => Columns.ofExpr enums definition
    | none => OrderedMap.empty
  let filled := { entity with columns := columns }
  match root.arg? 2 with
  | some extras => filled.withExtras extras
  | none => filled

@[simp] theorem name_readFrom (enums : Enumerations) (root : Frame) (entity : Entity) :
    (entity.readFrom enums root).name = entity.name := by
  unfold readFrom
  dsimp only
  split <;> simp

@[simp] theorem binding_readFrom (enums : Enumerations) (root : Frame) (entity : Entity) :
    (entity.readFrom enums root).binding = entity.binding := by
  unfold readFrom
  dsimp only
  split <;> simp

@[simp] theorem fileName_readFrom (enums : Enumerations) (root : Frame) (entity : Entity) :
    (entity.readFrom enums root).fileName = entity.fileName := by
  unfold readFrom
  dsimp only
  split <;> simp

@[simp] theorem relations_readFrom (enums : Enumerations) (root : Frame) (entity : Entity) :
    (entity.readFrom enums root).relations = entity.relations := by
  unfold readFrom
  dsimp only
  split <;> simp

end Entity

/-- Whether a declaration declares a relation of a table variable under a name: its callback returns
an object with an entry of that name. -/
def Declaration.DeclaresRelation (declaration : Declaration) (binding localName : String)
    (value : Expr) : Prop :=
  ∃ root params body entries, declaration.init.rootFrame? = some root ∧ root.name = "relations" ∧
    (root.arg? 0).bind Expr.name? = some binding ∧
    (root.arg? 1).bind Expr.function? = some (params, body) ∧ body.entries? = some entries ∧
    (localName, value) ∈ entries

namespace Catalog

variable {catalog : Catalog}

theorem readTable_eq (catalog : Catalog) (binding : String) (root : Frame) :
    catalog.readTable binding root = catalog.modify binding (·.readFrom catalog.enums root) := rfl

/-- Whether no relation of a catalog was read yet. -/
structure Unrelated (catalog : Catalog) : Prop where
  distinct : catalog.Distinct
  relations_eq : ∀ entity ∈ catalog.entities, entity.relations = []
  stubs_eq : catalog.stubs = []

namespace Unrelated

theorem empty : Unrelated empty := ⟨Distinct.empty, by simp [Catalog.empty], rfl⟩

theorem registerTable (hunrelated : catalog.Unrelated)
    (binding wanted tableName fileName : String) :
    (catalog.registerTable binding wanted tableName fileName).Unrelated := by
  refine ⟨hunrelated.distinct.registerTable binding wanted tableName fileName, ?_, ?_⟩
  · intro entity hentity
    unfold Catalog.registerTable at hentity
    dsimp only at hentity
    split at hentity
    · -- A known variable keeps its relations, whatever it is named now.
      obtain ⟨former, hformer, rfl⟩ := List.mem_map.mp hentity
      have hnone := hunrelated.relations_eq former hformer
      split <;> exact hnone
    · rcases List.mem_append.mp hentity with hformer | hnew
      · exact hunrelated.relations_eq entity hformer
      · rw [List.mem_singleton.mp hnew]
        rfl
  · unfold Catalog.registerTable
    dsimp only
    split <;> exact hunrelated.stubs_eq

theorem registerDeclaration (hunrelated : catalog.Unrelated) (builders : Builders)
    (declaration : String × Declaration) :
    (catalog.registerDeclaration builders declaration).Unrelated := by
  obtain ⟨fileName, declaration⟩ := declaration
  dsimp only [Catalog.registerDeclaration]
  split
  · exact hunrelated
  · split_ifs
    · exact hunrelated.registerTable _ _ _ _
    · exact ⟨⟨hunrelated.distinct.bindings_nodup, hunrelated.distinct.names_nodup⟩,
        hunrelated.relations_eq, hunrelated.stubs_eq⟩
    · exact hunrelated

theorem register (hunrelated : catalog.Unrelated) (builders : Builders) (modules : List Module) :
    (catalog.register builders modules).Unrelated := by
  apply List.foldlRecOn (motive := Unrelated) _ _ hunrelated
  intro catalog hunrelated declaration _
  exact hunrelated.registerDeclaration builders declaration

theorem readTable (hunrelated : catalog.Unrelated) (binding : String) (root : Frame) :
    (catalog.readTable binding root).Unrelated := by
  rw [readTable_eq]
  refine ⟨hunrelated.distinct.modify binding (Entity.binding_readFrom _ root)
    (Entity.name_readFrom _ root), ?_, hunrelated.stubs_eq⟩
  intro entity hentity
  obtain ⟨former, hformer, rfl⟩ := List.mem_map.mp hentity
  have hnone := hunrelated.relations_eq former hformer
  split
  · rw [Entity.relations_readFrom, hnone]
  · exact hnone

theorem tableDeclaration (hunrelated : catalog.Unrelated) (builders : Builders)
    (declaration : Declaration) : (catalog.tableDeclaration builders declaration).Unrelated := by
  unfold Catalog.tableDeclaration
  split
  next => exact hunrelated
  next root _ =>
    split
    · split
      next marked hmarked =>
        have hsame : marked = { catalog with populated := marked.populated } := by
          unfold markPopulated at hmarked
          split at hmarked <;> cases hmarked
          rfl
        refine readTable ?_ declaration.name root
        rw [hsame]
        exact ⟨⟨hunrelated.distinct.bindings_nodup, hunrelated.distinct.names_nodup⟩,
          hunrelated.relations_eq, hunrelated.stubs_eq⟩
      next => exact hunrelated
    · exact hunrelated

theorem readTables (hunrelated : catalog.Unrelated) (builders : Builders)
    (modules : List Module) : (catalog.readTables builders modules).Unrelated := by
  apply List.foldlRecOn (motive := Unrelated) _ _ hunrelated
  intro catalog hunrelated declaration _
  exact hunrelated.tableDeclaration builders declaration

end Unrelated

/-- Whether the relations of a catalog wait as they were declared, and no entity has one yet. -/
structure Awaiting (catalog : Catalog) : Prop where
  distinct : catalog.Distinct
  relations_eq : ∀ entity ∈ catalog.entities, entity.relations = []
  declared : ∀ stub ∈ catalog.stubs, stub.IsDeclared
  owned : ∀ stub ∈ catalog.stubs, ∃ entity ∈ catalog.entities,
    entity.binding = stub.fromBinding ∧ entity.name = stub.fromEntity

theorem exists_eq_some_of_mem_getD {α : Type} {found : Option (List α)} {item : α}
    (hmem : item ∈ found.getD []) : ∃ items, found = some items ∧ item ∈ items := by
  cases found with
  | none => cases hmem
  | some items => exact ⟨items, rfl, hmem⟩

/-- A relation that is read starts from the entity of its table variable. -/
theorem exists_owner_of_ofExpr? {binding localName : String} {expr : Expr} {relation : Relation}
    (hread : Relation.ofExpr? catalog binding localName expr = some relation) :
    ∃ entity ∈ catalog.entities,
      entity.binding = relation.fromBinding ∧ entity.name = relation.fromEntity := by
  simp only [Relation.ofExpr?, Relation.ofTables?, bind, pure, Option.bind_eq_some_iff,
    Option.some.injEq] at hread
  obtain ⟨owner, howner, _, _, _, _, rfl⟩ := hread
  obtain ⟨hmem, hbinding⟩ := entityFor?_eq_some howner
  exact ⟨owner, hmem, hbinding, rfl⟩

/-- The relations of a declaration are those that it declares for an entity. -/
theorem mem_relationsOf_iff {declaration : Declaration} {relation : Relation} :
    relation ∈ catalog.relationsOf declaration ↔ ∃ binding localName value,
      declaration.DeclaresRelation binding localName value ∧
      Relation.ofExpr? catalog binding localName value = some relation := by
  constructor
  · intro hmem
    obtain ⟨stubs, hstubs, hmem⟩ := exists_eq_some_of_mem_getD hmem
    simp only [bind, pure, Option.bind_eq_some_iff, Option.some.injEq] at hstubs
    obtain ⟨root, hroot, _, hguard, binding, hbinding, _, _, ⟨params, body⟩, hbody, entries,
      hentries, rfl⟩ := hstubs
    obtain ⟨⟨localName, value⟩, hentry, hread⟩ := List.mem_filterMap.mp hmem
    have hname : root.name = "relations" := by
      by_contra hother
      rw [guard, if_neg hother] at hguard
      cases hguard
    exact ⟨binding, localName, value, ⟨root, params, body, entries, hroot, hname,
      Option.bind_eq_some_iff.mpr hbinding, Option.bind_eq_some_iff.mpr hbody, hentries, hentry⟩,
      hread⟩
  · rintro ⟨binding, localName, value, ⟨root, params, body, entries, hroot, hname, hbinding,
      hbody, hentries, hentry⟩, hread⟩
    obtain ⟨owner, howner⟩ : ∃ owner, catalog.entityFor? binding = some owner := by
      simp only [Relation.ofExpr?, Relation.ofTables?, bind, Option.bind_eq_some_iff] at hread
      obtain ⟨owner, howner, _⟩ := hread
      exact ⟨owner, howner⟩
    have hstubs : catalog.relationsOf declaration = entries.filterMap fun entry =>
        Relation.ofExpr? catalog binding entry.1 entry.2 := by
      unfold relationsOf guard
      simp [hroot, hname, hbinding, howner, hbody, hentries]
    rw [hstubs]
    exact List.mem_filterMap.mpr ⟨(localName, value), hentry, hread⟩

theorem Unrelated.readRelations (hunrelated : catalog.Unrelated) (modules : List Module) :
    (catalog.readRelations modules).Awaiting := by
  have hread : ∀ stub ∈ (catalog.readRelations modules).stubs, ∃ binding localName expr,
      Relation.ofExpr? catalog binding localName expr = some stub := by
    intro stub hmem
    simp only [Catalog.readRelations, addStubs, hunrelated.stubs_eq, List.nil_append,
      List.mem_flatMap] at hmem
    obtain ⟨_, _, hmem⟩ := hmem
    obtain ⟨binding, localName, value, _, hstub⟩ := mem_relationsOf_iff.mp hmem
    exact ⟨binding, localName, value, hstub⟩
  refine ⟨⟨hunrelated.distinct.bindings_nodup, hunrelated.distinct.names_nodup⟩,
    hunrelated.relations_eq, ?_, ?_⟩
  · intro stub hmem
    obtain ⟨_, _, _, hstub⟩ := hread stub hmem
    exact Relation.isDeclared_of_ofExpr? hstub
  · intro stub hmem
    obtain ⟨_, _, _, hstub⟩ := hread stub hmem
    exact exists_owner_of_ofExpr? hstub

/-- The catalog of the declarations of files whose relations still wait. -/
def collected (builders : Builders) (modules : List Module) : Catalog :=
  ((empty.register builders modules).readTables builders modules).readRelations modules

theorem ofModules_eq_resolve (builders : Builders) (modules : List Module) :
    ofModules builders modules = (collected builders modules).resolve := rfl

theorem awaiting_collected (builders : Builders) (modules : List Module) :
    (collected builders modules).Awaiting :=
  ((Unrelated.empty.register builders modules).readTables builders modules).readRelations modules

end Catalog

end EntityModel
