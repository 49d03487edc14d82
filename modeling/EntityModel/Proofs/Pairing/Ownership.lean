import EntityModel.Catalog.Relations
import EntityModel.Proofs.Pairing.Matching
import EntityModel.Schema.Fields

/-!
# Cardinality and ownership of paired relations

What a declaration says of its relation (`IsDeclared`) and what linking settles (`side`) together
determine the cardinality and the owner of every relation, and with these where a schema writes the
column or the table that joins two entities.
-/

namespace EntityModel

namespace Schema

/-- Whether the schema of a relation has a field. -/
def Writes (relation : Relation) (field : String) : Prop :=
  field ∈ (relationFields relation).map Prod.fst

end Schema

namespace Relation

theorem isPlainOne_of_many {relation : Relation} (hmany : relation.builder = .many) :
    relation.isPlainOne = false := by
  simp [isPlainOne, hmany]

/-- What holds of a relation as its declaration is read, before any pairing. -/
structure IsDeclared (relation : Relation) : Prop where
  cardinality_eq : relation.cardinality =
    declaredCardinality relation.builder relation.explicitFields
  inverseSide_eq : relation.inverseSide = none
  isOwner_eq : relation.isOwner =
    (relation.cardinality.isSingular && relation.joinColumn.isSome)

theorem isDeclared_of_ofExpr? {catalog : Catalog} {binding localName : String} {expr : Expr}
    {relation : Relation} (hread : ofExpr? catalog binding localName expr = some relation) :
    relation.IsDeclared := by
  simp only [ofExpr?, ofTables?, bind, pure, Option.bind_eq_some_iff, Option.some.injEq] at hread
  obtain ⟨owner, _, root, _, toBinding, _, rfl⟩ := hread
  exact ⟨rfl, rfl, rfl⟩

namespace IsDeclared

variable {relation : Relation} (hdeclared : relation.IsDeclared)

include hdeclared

/-- The declared cardinality, by the number of rows that the declaration asks for. -/
theorem cardinality_eq_ite : relation.cardinality =
    if relation.builder = .many then .oneToMany
    else if relation.isPlainOne = true then .oneToOne else .manyToOne := by
  rw [hdeclared.cardinality_eq]
  unfold declaredCardinality isPlainOne
  cases relation.builder <;> cases relation.explicitFields <;> rfl

theorem cardinality_eq_oneToOne_iff :
    relation.cardinality = .oneToOne ↔ relation.isPlainOne = true := by
  rw [hdeclared.cardinality_eq_ite]
  split_ifs with hmany hplain
  · simp [isPlainOne_of_many hmany]
  · simp [hplain]
  · simp [hplain]

end IsDeclared

/-- The cardinality of a side of a link, by what both sides are declared as. -/
theorem cardinality_side {relation : Relation} (hdeclared : relation.IsDeclared) (isFirst : Bool)
    (partner : Relation) : (side isFirst relation partner).cardinality =
      if relation.builder = .many then
        if partner.builder = .many then .manyToMany else .oneToMany
      else if relation.isPlainOne = true ∧ partner.isPlainOne = true then .oneToOne
      else .manyToOne := by
  unfold side asRefinedSide
  simp only [hdeclared.cardinality_eq_oneToOne_iff]
  by_cases hmany : relation.builder = .many
  · -- Many rows are kept unless both sides have them.
    have hplain := isPlainOne_of_many hmany
    have hdeclaredMany := hdeclared.cardinality_eq_ite
    rw [if_pos hmany] at hdeclaredMany
    by_cases hmany' : partner.builder = .many <;>
      simp [asSide, hmany, hmany', hplain, hdeclaredMany]
  · have hdeclaredOne := hdeclared.cardinality_eq_ite
    rw [if_neg hmany] at hdeclaredOne
    cases hplain : relation.isPlainOne <;> cases hplain' : partner.isPlainOne <;>
      simp_all [asSide]

section Declared

variable {stubs : List Relation} (hdeclared : ∀ stub ∈ stubs, stub.IsDeclared)

include hdeclared

end Declared

end Relation

end EntityModel
