import EntityModel.Proofs.Catalog.Inverse

/-!
# Cardinalities of the two sides of a pair

A pair with a declaration of many rows, and a pair of two declarations of one row without columns,
gets cardinalities that are inverse to each other. Otherwise neither side knows that the other one
has at most one row, and both are many-to-one.
-/

namespace EntityModel

/-- The cardinality seen from the other side. -/
def Cardinality.inverse : Cardinality → Cardinality
  | .oneToMany => .manyToOne
  | .manyToOne => .oneToMany
  | .oneToOne => .oneToOne
  | .manyToMany => .manyToMany

namespace Relation

/-- What holds of the cardinalities of two sides of a pair. -/
structure FacesAgree (left right : Relation) : Prop where
  inverse_iff : right.cardinality = left.cardinality.inverse ↔
    left.builder = .many ∨ right.builder = .many ∨
      left.isPlainOne = true ∧ right.isPlainOne = true
  manyToOne_otherwise : right.cardinality ≠ left.cardinality.inverse →
    left.cardinality = .manyToOne ∧ right.cardinality = .manyToOne

/-- What the declarations say of two sides settles whether their cardinalities are inverse. -/
theorem facesAgree_side {relation partner : Relation} (hrelation : relation.IsDeclared)
    (hpartner : partner.IsDeclared) (isFirst isFirst' : Bool) :
    FacesAgree (side isFirst relation partner) (side isFirst' partner relation) := by
  have hleft := cardinality_side hrelation isFirst partner
  have hright := cardinality_side hpartner isFirst' relation
  by_cases hmany : relation.builder = .many
  · have hplain := isPlainOne_of_many hmany
    by_cases hmany' : partner.builder = .many <;> constructor <;>
      simp [hleft, hright, hmany, hmany', hplain, Cardinality.inverse]
  · by_cases hmany' : partner.builder = .many
    · have hplain' := isPlainOne_of_many hmany'
      constructor <;> simp [hleft, hright, hmany, hmany', hplain', Cardinality.inverse]
    · -- Without many rows on either side only two plain declarations of one row agree.
      cases hplain : relation.isPlainOne <;> cases hplain' : partner.isPlainOne <;> constructor <;>
        simp [hleft, hright, hmany, hmany', hplain, hplain', Cardinality.inverse]

end Relation

namespace Catalog

/-- Whether two relations of a catalog name each other as inverse sides. -/
def Inverses (catalog : Catalog) (left right : Relation) : Prop :=
  ∃ source ∈ catalog.entities, ∃ target ∈ catalog.entities, left ∈ source.relations ∧
    right ∈ target.relations ∧ left.toEntity = target.name ∧ right.toEntity = source.name ∧
    left.inverseSide = some right.localName ∧ right.inverseSide = some left.localName

instance {catalog : Catalog} {left right : Relation} : Decidable (catalog.Inverses left right) :=
  inferInstanceAs (Decidable (∃ source ∈ catalog.entities, ∃ target ∈ catalog.entities,
    left ∈ source.relations ∧ right ∈ target.relations ∧ left.toEntity = target.name ∧
      right.toEntity = source.name ∧ left.inverseSide = some right.localName ∧
      right.inverseSide = some left.localName))

/-- Whether any two relations of a catalog that name each other have inverse cardinalities. -/
def CardinalitiesInverse (catalog : Catalog) : Prop :=
  ∀ left ∈ catalog.entities.flatMap (·.relations),
    ∀ right ∈ catalog.entities.flatMap (·.relations), left ≠ right →
      catalog.Inverses left right → right.cardinality = left.cardinality.inverse

instance {catalog : Catalog} : Decidable catalog.CardinalitiesInverse :=
  inferInstanceAs (Decidable (∀ left ∈ catalog.entities.flatMap (·.relations),
    ∀ right ∈ catalog.entities.flatMap (·.relations), left ≠ right →
      catalog.Inverses left right → right.cardinality = left.cardinality.inverse))

open EntityModel.Relation

/-- Two relations of entities that name each other are the two sides of a link, or one relation. -/
theorem Awaiting.linked_of_inverses {catalog : Catalog} (hawaiting : catalog.Awaiting)
    {left right : Relation} (hinverses : catalog.resolve.Inverses left right)
    (hne : left ≠ right) : ∃ place other stub partner, Linked catalog.stubs place other ∧
      catalog.stubs[place]? = some stub ∧ catalog.stubs[other]? = some partner ∧
      left = side (place < other) stub partner ∧ right = side (other < place) partner stub := by
  obtain ⟨source, hsource, target, htarget, hleft, hright, hto, hto', hinverse, hinverse'⟩ :=
    hinverses
  obtain ⟨place, other, stub, partner, hlinked, hstub, hpartner, hkept, rfl, hname, hfrom⟩ :=
    hawaiting.exists_linked hsource hleft hinverse
  obtain ⟨back, mate, stub', partner', hlinked', hstub', hpartner', hkept', rfl, hname', hfrom'⟩ :=
    hawaiting.exists_linked htarget hright hinverse'
  simp only [localName_side, toEntity_side] at hname hname' hto hto'
  rcases hawaiting.eq_of_named hlinked hlinked' hstub hpartner hstub' hpartner' hkept hkept'
    (hfrom'.symm.trans hto.symm) (hto'.trans hfrom) hname hname'.symm with rfl | ⟨rfl, rfl⟩
  · obtain rfl := hlinked.symm.unique hlinked'
    obtain rfl := Option.some.inj (hstub.symm.trans hpartner')
    obtain rfl := Option.some.inj (hpartner.symm.trans hstub')
    exact ⟨_, _, _, _, hlinked, hstub, hpartner, rfl, rfl⟩
  · obtain rfl := Option.some.inj (hstub.symm.trans hstub')
    obtain rfl := Option.some.inj (hpartner.symm.trans hpartner')
    exact absurd rfl hne

/-- What it means that the cardinalities of the pairs of a catalog agree: those of the two sides of
every pair, and so those of any two relations of its entities that name each other. -/
structure PairsAgree (stubs : List Relation) (catalog : Catalog) : Prop where
  linked : ∀ {place other : Nat} {left right : Relation}, Linked stubs place other →
    (pairAll stubs)[place]? = some left → (pairAll stubs)[other]? = some right →
    FacesAgree left right
  inverses : ∀ {left right : Relation}, left ≠ right → catalog.Inverses left right →
    FacesAgree left right

/-- Sides that face each other have inverse cardinalities, if one of them is declared with many
rows or both are declared with one row and no columns. -/
theorem pairsAgree_ofModules (builders : Builders) (modules : List Module) :
    PairsAgree (collected builders modules).stubs (ofModules builders modules) := by
  have hawaiting := awaiting_collected builders modules
  have hdeclared : ∀ {place : Nat} {stub : Relation},
      (collected builders modules).stubs[place]? = some stub → stub.IsDeclared :=
    fun hstub => hawaiting.declared _ (List.mem_of_getElem? hstub)
  constructor
  · intro place other left right hlinked hleft hright
    obtain ⟨stub, _, _, _, hstub, _⟩ := exists_eq_of_getElem?_pairAll hleft
    obtain ⟨partner, _, _, _, hpartner, _⟩ := exists_eq_of_getElem?_pairAll hright
    rw [hlinked.getElem?_pairAll hstub hpartner] at hleft
    rw [hlinked.symm.getElem?_pairAll hpartner hstub] at hright
    obtain rfl := Option.some.inj hleft
    obtain rfl := Option.some.inj hright
    exact facesAgree_side (hdeclared hstub) (hdeclared hpartner) _ _
  · intro left right hne hinverses
    rw [ofModules_eq_resolve] at hinverses
    obtain ⟨_, _, stub, partner, _, hstub, hpartner, rfl, rfl⟩ :=
      hawaiting.linked_of_inverses hinverses hne
    exact facesAgree_side (hdeclared hstub) (hdeclared hpartner) _ _

/-- A user has one profile and the profile lists the column of its user: both sides become
many-to-one. -/
theorem not_cardinalitiesInverse_profile : ¬ (ofModules Builders.usual [⟨"users.ts", [
    ⟨"users", .call (.ident "pgTable") [.string "users", .object [
      ("id", .call (.ident "integer") [.string "id"])]]⟩,
    ⟨"profiles", .call (.ident "pgTable") [.string "profiles", .object [
      ("userId", .call (.ident "integer") [.string "user_id"])]]⟩,
    ⟨"usersRelations", .call (.ident "relations") [.ident "users", .arrow ["{ one }"]
      (.object [("profile", .call (.ident "one") [.ident "profiles"])])]⟩,
    ⟨"profilesRelations", .call (.ident "relations") [.ident "profiles", .arrow ["{ one }"]
      (.object [("user", .call (.ident "one") [.ident "users", .object [
        ("fields", .array [.member (.ident "profiles") "userId"]),
        ("references", .array [.member (.ident "users") "id"])]])])]⟩]⟩]).CardinalitiesInverse := by
  decide +kernel

end Catalog

end EntityModel
