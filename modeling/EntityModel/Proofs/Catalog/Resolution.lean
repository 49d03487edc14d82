import EntityModel.Catalog.Relations
import Mathlib.Data.List.Induction
import Mathlib.Tactic.SplitIfs

/-!
# Giving relations to entities

Attaching relations one after the other gives each entity those that start from its table variable,
in their order, except those whose name it has already, be it from before or from an earlier one of
them.
-/

namespace EntityModel

namespace Relation

/-- Whether one of some relations has the table variable and the name of a relation. -/
def isNamedIn (relation : Relation) (others : List Relation) : Bool :=
  others.any fun other =>
    other.fromBinding = relation.fromBinding && other.localName = relation.localName

theorem isNamedIn_iff {relation : Relation} {others : List Relation} :
    relation.isNamedIn others = true ↔ ∃ other ∈ others,
      other.fromBinding = relation.fromBinding ∧ other.localName = relation.localName := by
  simp [isNamedIn]

/-- Whether the relation at a place is the first of its table variable and name. -/
def IsKept (relations : List Relation) (place : Nat) : Prop :=
  ∃ relation, relations[place]? = some relation ∧ ∀ earlier former, earlier < place →
    relations[earlier]? = some former → former.fromBinding = relation.fromBinding →
    former.localName ≠ relation.localName

theorem isKept_iff {relations : List Relation} {place : Nat} {relation : Relation}
    (hat : relations[place]? = some relation) :
    IsKept relations place ↔ relation.isNamedIn (relations.take place) = false := by
  rw [← Bool.not_eq_true, isNamedIn_iff]
  constructor
  · rintro ⟨_, hfound, hfirst⟩ ⟨former, hmem, hbinding, hname⟩
    obtain rfl := Option.some.inj (hat.symm.trans hfound)
    obtain ⟨earlier, hearlier⟩ := List.mem_iff_getElem?.mp hmem
    rw [List.getElem?_take] at hearlier
    obtain ⟨hlt, hformer⟩ := Option.ite_none_right_eq_some.mp hearlier
    exact hfirst earlier former hlt hformer hbinding hname
  · intro hnone
    refine ⟨relation, hat, fun earlier former hlt hformer hbinding hname => hnone ?_⟩
    refine ⟨former, List.mem_iff_getElem?.mpr ⟨earlier, ?_⟩, hbinding, hname⟩
    rw [List.getElem?_take_of_lt hlt, hformer]

/-- A relation that is kept does not stand after one of its table variable and name. -/
theorem IsKept.le {relations : List Relation} {place other : Nat} {relation former : Relation}
    (hkept : IsKept relations place) (hat : relations[place]? = some relation)
    (hother : relations[other]? = some former)
    (hbinding : former.fromBinding = relation.fromBinding)
    (hname : former.localName = relation.localName) : place ≤ other := by
  obtain ⟨_, hfound, hfirst⟩ := hkept
  obtain rfl := Option.some.inj (hat.symm.trans hfound)
  by_contra hlt
  exact hfirst other former (Nat.lt_of_not_le hlt) hother hbinding hname

end Relation

namespace Entity

variable {entity : Entity}

/-- An entity after a relation is attached to the entity that it starts from. -/
def attached (entity : Entity) (relation : Relation) : Entity :=
  if entity.binding = relation.fromBinding then entity.addRelation relation else entity

/-- The relations of a list that an entity is given: those that start from its table variable and
whose name neither the entity nor an earlier one of them has. -/
def gained (entity : Entity) (relations : List Relation) : List Relation :=
  (relations.zipIdx.filter fun (relation, place) =>
    relation.fromBinding = entity.binding && !(entity.relation? relation.localName).isSome &&
      !relation.isNamedIn (relations.take place)).map Prod.fst

theorem relation?_isSome_iff {localName : String} : (entity.relation? localName).isSome = true ↔
    ∃ relation ∈ entity.relations, relation.localName = localName := by
  simp [relation?]

/-- Attaching changes nothing but the relations of an entity. -/
theorem exists_attached_eq (entity : Entity) (relation : Relation) :
    ∃ relations, entity.attached relation = { entity with relations := relations } := by
  unfold attached addRelation
  split_ifs <;> exact ⟨_, rfl⟩

theorem relations_attached (entity : Entity) (relation : Relation) :
    (entity.attached relation).relations =
      if relation.fromBinding = entity.binding ∧
        (entity.relation? relation.localName).isSome = false then entity.relations ++ [relation]
      else entity.relations := by
  unfold attached addRelation
  split_ifs <;> simp_all

theorem exists_foldl_attached_eq (entity : Entity) (relations : List Relation) :
    ∃ after, relations.foldl attached entity = { entity with relations := after } := by
  induction relations generalizing entity with
  | nil => exact ⟨_, rfl⟩
  | cons relation relations ih =>
      obtain ⟨after, hfirst⟩ := exists_attached_eq entity relation
      obtain ⟨after', hrest⟩ := ih { entity with relations := after }
      exact ⟨after', by rw [List.foldl_cons, hfirst, hrest]⟩

/-- Relations that start elsewhere change nothing of an entity. -/
theorem foldl_attached_eq_filter {keep : Relation → Bool} (entity : Entity)
    (relations : List Relation) (hdropped : ∀ relation ∈ relations, keep relation = false →
      relation.fromBinding ≠ entity.binding) :
    relations.foldl attached entity = (relations.filter keep).foldl attached entity := by
  induction relations generalizing entity with
  | nil => rfl
  | cons relation relations ih =>
      obtain ⟨hfirst, hrest⟩ := List.forall_mem_cons.mp hdropped
      cases hkeep : keep relation with
      | true =>
          obtain ⟨after, hattached⟩ := exists_attached_eq entity relation
          rw [List.filter_cons_of_pos hkeep, List.foldl_cons, List.foldl_cons, ih]
          rw [hattached]
          exact hrest
      | false =>
          have hsame : entity.attached relation = entity := if_neg (hfirst hkeep).symm
          rw [List.filter_cons_of_neg (Bool.eq_false_iff.mp hkeep), List.foldl_cons, hsame,
            ih entity hrest]

/-- After attaching, an entity has the names that it had and those of the relations that start
from it. -/
theorem relation?_attached_isSome_iff {relation : Relation} {localName : String} :
    ((entity.attached relation).relation? localName).isSome = true ↔
      (entity.relation? localName).isSome = true ∨
        relation.fromBinding = entity.binding ∧ relation.localName = localName := by
  unfold attached addRelation
  split_ifs with hbinding htaken
  · constructor
    · exact Or.inl
    · rintro (hhas | ⟨_, rfl⟩)
      · exact hhas
      · exact htaken
  · simp [relation?_isSome_iff, hbinding, or_and_right, exists_or]
  · simp [Ne.symm hbinding]

theorem relation?_foldl_attached_isSome_iff {relations : List Relation} {localName : String} :
    ((relations.foldl attached entity).relation? localName).isSome = true ↔
      (entity.relation? localName).isSome = true ∨ ∃ relation ∈ relations,
        relation.fromBinding = entity.binding ∧ relation.localName = localName := by
  induction relations generalizing entity with
  | nil => simp
  | cons relation relations ih =>
      obtain ⟨after, hattached⟩ := exists_attached_eq entity relation
      have hbinding : (entity.attached relation).binding = entity.binding := by rw [hattached]
      rw [List.foldl_cons, ih, relation?_attached_isSome_iff, hbinding]
      simp [or_assoc]

theorem relation?_foldl_attached_isSome_eq {relation : Relation} (relations : List Relation)
    (hbinding : relation.fromBinding = entity.binding) :
    ((relations.foldl attached entity).relation? relation.localName).isSome =
      ((entity.relation? relation.localName).isSome || relation.isNamedIn relations) := by
  rw [Bool.eq_iff_iff, relation?_foldl_attached_isSome_iff, Bool.or_eq_true,
    Relation.isNamedIn_iff, hbinding]

theorem gained_append_singleton (entity : Entity) (relations : List Relation)
    (relation : Relation) : entity.gained (relations ++ [relation]) = entity.gained relations ++
      if relation.fromBinding = entity.binding ∧
        (entity.relation? relation.localName).isSome = false ∧
        relation.isNamedIn relations = false then [relation] else [] := by
  unfold gained
  rw [List.zipIdx_append, List.filter_append, List.map_append]
  congr 1
  · -- What stands before a place of the shorter list stands before it in the longer one.
    congr 1
    apply List.filter_congr
    rintro ⟨former, place⟩ hmem
    have hplace : place < relations.length := by
      have hat := List.mk_mem_zipIdx_iff_getElem?.mp hmem
      exact (List.getElem?_eq_some_iff.mp hat).1
    simp only [List.take_append_of_le_length (Nat.le_of_lt hplace)]
  · rw [List.zipIdx_singleton, Nat.zero_add, List.filter_cons, List.filter_nil]
    simp only [List.take_left, Bool.and_eq_true, decide_eq_true_eq, Bool.not_eq_true', and_assoc]
    split_ifs <;> rfl

/-- Attaching relations to an entity appends those that it gains. -/
theorem relations_foldl_attached (entity : Entity) (relations : List Relation) :
    (relations.foldl attached entity).relations =
      entity.relations ++ entity.gained relations := by
  induction relations using List.reverseRecOn with
  | nil => simp [gained]
  | append_singleton relations relation ih =>
      obtain ⟨after, hafter⟩ := exists_foldl_attached_eq entity relations
      have hbinding : (relations.foldl attached entity).binding = entity.binding := by rw [hafter]
      rw [List.foldl_append, List.foldl_cons, List.foldl_nil, gained_append_singleton]
      rw [relations_attached, hbinding, ih]
      -- The entity has the name of the last relation by now, if an earlier one brought it.
      by_cases hstarts : relation.fromBinding = entity.binding
      · rw [relation?_foldl_attached_isSome_eq relations hstarts]
        cases (entity.relation? relation.localName).isSome <;>
          cases relation.isNamedIn relations <;> simp [hstarts]
      · simp [hstarts]

theorem mem_gained_iff {relations : List Relation} {relation : Relation} :
    relation ∈ entity.gained relations ↔ relation.fromBinding = entity.binding ∧
      entity.relation? relation.localName = none ∧
      ∃ place, relations[place]? = some relation ∧ Relation.IsKept relations place := by
  unfold gained
  constructor
  · intro hmem
    obtain ⟨⟨_, place⟩, hfound, rfl⟩ := List.mem_map.mp hmem
    obtain ⟨hat, hcond⟩ := List.mem_filter.mp hfound
    rw [List.mk_mem_zipIdx_iff_getElem?] at hat
    simp only [Bool.and_eq_true, decide_eq_true_eq, Bool.not_eq_true', Option.isSome_eq_false_iff,
      Option.isNone_iff_eq_none] at hcond
    exact ⟨hcond.1.1, hcond.1.2, place, hat, (Relation.isKept_iff hat).mpr hcond.2⟩
  · rintro ⟨hbinding, hnone, place, hat, hkept⟩
    have hfirst := (Relation.isKept_iff hat).mp hkept
    apply List.mem_map.mpr
    refine ⟨(relation, place), List.mem_filter.mpr ⟨?_, ?_⟩, rfl⟩
    · exact List.mk_mem_zipIdx_iff_getElem?.mpr hat
    · simp [hbinding, hnone, hfirst]

end Entity

namespace Catalog

/-- Giving relations to a catalog gives them to each entity on its own. -/
theorem entities_foldl_attach (catalog : Catalog) (relations : List Relation) :
    (relations.foldl attach catalog).entities =
      catalog.entities.map (relations.foldl Entity.attached) := by
  induction relations generalizing catalog with
  | nil => simp
  | cons relation relations ih =>
      rw [List.foldl_cons, ih]
      simp only [attach, modify, List.map_map]
      rfl

theorem entities_resolve (catalog : Catalog) : catalog.resolve.entities =
    catalog.entities.map ((Relation.pairAll catalog.stubs).foldl Entity.attached) :=
  entities_foldl_attach _ _

end Catalog

end EntityModel
