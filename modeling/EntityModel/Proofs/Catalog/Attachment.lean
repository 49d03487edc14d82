import EntityModel.Proofs.Catalog.Operations

/-!
# Resolving again and again

Resolving appends to the relations of each entity those that it gains and leaves none waiting
(`Resolves`). After any operations the relations of an entity start from its table variable and have
names of their own, so that resolving a second time changes nothing.
-/

namespace EntityModel

namespace Entity

variable {entity : Entity}

/-- Whether the relations of an entity start from its table variable and have names of their own. -/
structure HasOwnRelations (entity : Entity) : Prop where
  fromBinding_eq : ∀ relation ∈ entity.relations, relation.fromBinding = entity.binding
  localNames_nodup : (entity.relations.map (·.localName)).Nodup

namespace HasOwnRelations

theorem bare (name tableName binding fileName : String) :
    (Entity.bare name tableName binding fileName).HasOwnRelations :=
  ⟨fun _ hmem => absurd hmem List.not_mem_nil, List.nodup_nil⟩

theorem of_eq {other : Entity} (hown : entity.HasOwnRelations)
    (hrelations : other.relations = entity.relations) (hbinding : other.binding = entity.binding) :
    other.HasOwnRelations := by
  constructor
  · rw [hrelations, hbinding]
    exact hown.fromBinding_eq
  · rw [hrelations]
    exact hown.localNames_nodup

/-- A relation is attached only under a name that the entity does not have. -/
theorem attached (hown : entity.HasOwnRelations) (relation : Relation) :
    (entity.attached relation).HasOwnRelations := by
  obtain ⟨after, hafter⟩ := exists_attached_eq entity relation
  have hbinding : (entity.attached relation).binding = entity.binding := by rw [hafter]
  by_cases hgains : relation.fromBinding = entity.binding ∧
      (entity.relation? relation.localName).isSome = false
  · have hrelations : (entity.attached relation).relations = entity.relations ++ [relation] := by
      rw [relations_attached, if_pos hgains]
    have hnew : relation.localName ∉ entity.relations.map (·.localName) := by
      intro hmem
      obtain ⟨former, hformer, hname⟩ := List.mem_map.mp hmem
      have htaken := relation?_isSome_iff.mpr ⟨former, hformer, hname⟩
      rw [hgains.2] at htaken
      cases htaken
    constructor
    · rw [hrelations, hbinding]
      intro other hmem
      rcases List.mem_append.mp hmem with hformer | hlast
      · exact hown.fromBinding_eq other hformer
      · rw [List.mem_singleton.mp hlast]
        exact hgains.1
    · rw [hrelations, List.map_append, List.map_singleton, ← List.concat_eq_append]
      exact hown.localNames_nodup.concat hnew
  · exact hown.of_eq (by rw [relations_attached, if_neg hgains]) hbinding

theorem foldl_attached (hown : entity.HasOwnRelations) (relations : List Relation) :
    (relations.foldl Entity.attached entity).HasOwnRelations :=
  List.foldlRecOn relations Entity.attached hown fun _ hown relation _ => hown.attached relation

end HasOwnRelations

/-- Attaching relations gives an entity those that it gains and nothing else. -/
theorem foldl_attached_eq (entity : Entity) (relations : List Relation) :
    relations.foldl attached entity =
      { entity with relations := entity.relations ++ entity.gained relations } := by
  obtain ⟨after, hafter⟩ := exists_foldl_attached_eq entity relations
  rw [← relations_foldl_attached, hafter]

end Entity

namespace Catalog

variable {catalog : Catalog}

theorem foldl_attach_eq (catalog : Catalog) (relations : List Relation) :
    relations.foldl attach catalog =
      { catalog with entities := catalog.entities.map (relations.foldl Entity.attached) } := by
  rw [← entities_foldl_attach]
  induction relations generalizing catalog with
  | nil => rfl
  | cons relation relations ih => rw [List.foldl_cons, ih]; rfl

/-- What resolving makes of a catalog: each entity has its former relations, then those of the
paired ones that it gains, and none waits any more. -/
structure Resolves (before after : Catalog) : Prop where
  entities_eq : after.entities = before.entities.map fun entity => { entity with
    relations := entity.relations ++ entity.gained (Relation.pairAll before.stubs) }
  /-- Relations of unknown table variables are dropped. -/
  not_mem_of_unknown : ∀ relation ∈ Relation.pairAll before.stubs,
    before.entityFor? relation.fromBinding = none →
      ∀ entity ∈ after.entities, relation ∉ entity.relations
  stubs_eq : after.stubs = []
  enums_eq : after.enums = before.enums
  populated_eq : after.populated = before.populated

theorem resolve_eq (catalog : Catalog) : catalog.resolve = { catalog with
    entities := catalog.entities.map fun entity => { entity with
      relations := entity.relations ++ entity.gained (Relation.pairAll catalog.stubs) }
    stubs := [] } := by
  rw [resolve, foldl_attach_eq]
  simp only [Entity.foldl_attached_eq]

/-- Without waiting relations there is nothing to resolve. -/
theorem resolve_of_stubs_eq_nil (hnone : catalog.stubs = []) : catalog.resolve = catalog := by
  have hpaired : Relation.pairAll catalog.stubs = [] := by
    rw [hnone, ← List.length_eq_zero_iff, Relation.length_pairAll, List.length_nil]
  rw [resolve, hpaired, List.foldl_nil, ← hnone]

/-- Whether the relations of every entity start from it and have names of their own. -/
def RelationsOwned (catalog : Catalog) : Prop :=
  ∀ entity ∈ catalog.entities, entity.HasOwnRelations

namespace RelationsOwned

theorem modify (howned : catalog.RelationsOwned) (binding : String) {change : Entity → Entity}
    (hchange : ∀ entity : Entity, entity.HasOwnRelations → (change entity).HasOwnRelations) :
    (catalog.modify binding change).RelationsOwned := by
  intro entity hentity
  obtain ⟨former, hformer, rfl⟩ := List.mem_map.mp hentity
  have hown := howned former hformer
  split
  · exact hchange former hown
  · exact hown

theorem registerTable (howned : catalog.RelationsOwned)
    (binding wanted tableName fileName : String) :
    (catalog.registerTable binding wanted tableName fileName).RelationsOwned := by
  unfold Catalog.registerTable
  dsimp only
  split
  · exact howned.modify binding fun entity hown => hown.of_eq rfl rfl
  · intro entity hentity
    rcases List.mem_append.mp hentity with hformer | hnew
    · exact howned entity hformer
    · rw [List.mem_singleton.mp hnew]
      exact .bare _ _ _ _

/-- Every operation keeps the relations of every entity its own. -/
theorem apply (howned : catalog.RelationsOwned) (operation : Operation) :
    (operation.apply catalog).RelationsOwned := by
  cases operation with
  | registerTable binding wanted tableName fileName =>
      exact howned.registerTable binding wanted tableName fileName
  | markPopulated binding =>
      dsimp only [Operation.apply, markPopulated]
      split <;> exact howned
  | setColumns binding columns => exact howned.modify binding fun entity hown => hown.of_eq rfl rfl
  | addExtras binding extras =>
      exact howned.modify binding fun entity hown =>
        hown.of_eq (entity.relations_withExtras extras) (entity.binding_withExtras extras)
  | resolve =>
      intro entity hentity
      rw [Operation.apply, entities_resolve] at hentity
      obtain ⟨former, hformer, rfl⟩ := List.mem_map.mp hentity
      exact (howned former hformer).foldl_attached _
  | registerEnum _ _ | addStubs _ | readRelations _ => exact howned

theorem run (operations : List Operation) : (run operations).RelationsOwned :=
  List.foldlRecOn operations Operation.apply (fun _ hmem => absurd hmem List.not_mem_nil)
    fun _ howned operation _ => howned.apply operation

/-- What starts from an unknown table variable is a relation of no entity. -/
theorem not_mem_of_unknown (howned : catalog.RelationsOwned) {entity : Entity}
    (hentity : entity ∈ catalog.entities) {relation : Relation}
    (hunknown : relation.fromBinding ∉ catalog.entities.map (·.binding)) :
    relation ∉ entity.relations := by
  intro hmem
  apply hunknown
  rw [(howned entity hentity).fromBinding_eq relation hmem]
  exact List.mem_map_of_mem hentity

theorem resolves (howned : catalog.RelationsOwned) : Resolves catalog catalog.resolve where
  entities_eq := by rw [resolve_eq]
  not_mem_of_unknown relation _ hunknown entity hentity := by
    refine (howned.apply .resolve).not_mem_of_unknown hentity fun hmem => ?_
    rw [Operation.apply, map_entities_resolve catalog (·.binding) fun _ _ => rfl,
      ← entityFor?_isSome_iff, hunknown] at hmem
    cases hmem
  stubs_eq := by rw [resolve_eq]
  enums_eq := by rw [resolve_eq]
  populated_eq := by rw [resolve_eq]

end RelationsOwned

/-- After any operations, resolving appends to the relations of each entity those that it gains, all
of them under names of their own, and resolving once more changes nothing. -/
theorem resolve_run (operations : List Operation) :
    Resolves (run operations) (run operations).resolve ∧ (run operations).RelationsOwned ∧
      (run operations).resolve.RelationsOwned ∧
      (run operations).resolve.resolve = (run operations).resolve := by
  have howned := RelationsOwned.run operations
  exact ⟨howned.resolves, howned, howned.apply .resolve,
    resolve_of_stubs_eq_nil howned.resolves.stubs_eq⟩

end Catalog

end EntityModel
