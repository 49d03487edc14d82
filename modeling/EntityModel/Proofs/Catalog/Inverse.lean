import EntityModel.Proofs.Catalog.Reading
import EntityModel.Proofs.Catalog.Resolution

/-!
# Relations that name each other

Pairing gives both sides of a pair the name of the other one, but an entity keeps only the first of
its relations with a name. The sides of a catalog are mutual exactly if no pair loses just one of
its sides (`PairsSurvive`). Names do not lead astray beyond that: as pairs of one direction do not
cross, two relations that an entity keeps and that name each other are linked.
-/

namespace EntityModel

namespace Relation

variable {stubs : List Relation}

/-- Pairing changes nothing of a relation but what linking settles. -/
theorem exists_eq_of_getElem?_pairAll {place : Nat} {relation : Relation}
    (hresult : (pairAll stubs)[place]? = some relation) :
    ∃ stub inverse cardinality isOwner, stubs[place]? = some stub ∧ relation =
      { stub with inverseSide := inverse, cardinality := cardinality, isOwner := isOwner } := by
  obtain ⟨stub, hstub, ⟨_, rfl⟩ | ⟨other, partner, _, _, rfl⟩⟩ := getElem?_pairAll_cases hresult
  · exact ⟨_, _, _, _, hstub, rfl⟩
  · obtain ⟨_, _, hside⟩ := side_eq_asSide (place < other) stub partner
    exact ⟨stub, _, _, _, hstub, hside⟩

theorem isKept_pairAll_iff {place : Nat} : IsKept (pairAll stubs) place ↔ IsKept stubs place := by
  have hfound : ∀ {place : Nat} {stub : Relation}, stubs[place]? = some stub →
      ∃ relation, (pairAll stubs)[place]? = some relation ∧
        relation.fromBinding = stub.fromBinding ∧ relation.localName = stub.localName := by
    intro place stub hstub
    have hplace : place < (pairAll stubs).length := by
      rw [length_pairAll]
      exact (List.getElem?_eq_some_iff.mp hstub).1
    have hresult := List.getElem?_eq_getElem hplace
    obtain ⟨stub', _, _, _, hstub', heq⟩ := exists_eq_of_getElem?_pairAll hresult
    obtain rfl := Option.some.inj (hstub.symm.trans hstub')
    exact ⟨_, hresult, by rw [heq], by rw [heq]⟩
  constructor
  · rintro ⟨relation, hresult, hfirst⟩
    obtain ⟨stub, _, _, _, hstub, rfl⟩ := exists_eq_of_getElem?_pairAll hresult
    refine ⟨stub, hstub, fun earlier former hlt hformer hbinding hname => ?_⟩
    obtain ⟨relation, hrelation, hbinding', hname'⟩ := hfound hformer
    exact hfirst earlier relation hlt hrelation (hbinding'.trans hbinding) (hname'.trans hname)
  · rintro ⟨stub, hstub, hfirst⟩
    obtain ⟨relation, hrelation, hbinding, hname⟩ := hfound hstub
    refine ⟨relation, hrelation, fun earlier later hlt hlater hbinding' hname' => ?_⟩
    obtain ⟨former, _, _, _, hformer, rfl⟩ := exists_eq_of_getElem?_pairAll hlater
    exact hfirst earlier former hlt hformer (hbinding'.trans hbinding) (hname'.trans hname)

/-- Whether no pair loses just one side when entities keep the first of their relations with a
name. A pair of relations that share their entity and their name keeps its earlier side, which then
faces itself. -/
def PairsSurvive (stubs : List Relation) : Prop :=
  ∀ place other stub partner, Linked stubs place other → stubs[place]? = some stub →
    stubs[other]? = some partner → IsKept stubs place → IsKept stubs other ∨
      (partner.fromBinding = stub.fromBinding ∧ partner.localName = stub.localName)

theorem Linked.direction {place other : Nat} {stub partner : Relation}
    (hlinked : Linked stubs place other) (hstub : stubs[place]? = some stub)
    (hpartner : stubs[other]? = some partner) :
    partner.fromEntity = stub.toEntity ∧ partner.toEntity = stub.fromEntity := by
  obtain ⟨left, right, hleft, hright, hreverse⟩ :=
    (linked_iff_matched.mp hlinked).exists_getElem?
  obtain rfl := Option.some.inj (hstub.symm.trans hleft)
  obtain rfl := Option.some.inj (hpartner.symm.trans hright)
  simpa [isReverseOf] using hreverse

end Relation

namespace Catalog

variable {catalog : Catalog}

/-- Whether every relation with an inverse side leads to an entity that has a relation of that name
which leads back and names the first one as its own inverse side. -/
def InverseSidesMutual (catalog : Catalog) : Prop :=
  ∀ entity ∈ catalog.entities, ∀ relation ∈ entity.relations, ∀ inverse ∈ relation.inverseSide,
    ∃ target ∈ catalog.entities, target.name = relation.toEntity ∧
      ∃ back ∈ target.relations, back.localName = inverse ∧ back.toEntity = entity.name ∧
        back.inverseSide = some relation.localName

instance : Decidable catalog.InverseSidesMutual :=
  inferInstanceAs (Decidable (∀ entity ∈ catalog.entities, ∀ relation ∈ entity.relations,
    ∀ inverse ∈ relation.inverseSide, ∃ target ∈ catalog.entities,
      target.name = relation.toEntity ∧ ∃ back ∈ target.relations, back.localName = inverse ∧
        back.toEntity = entity.name ∧ back.inverseSide = some relation.localName))

/-- Resolving keeps every property of entities that is not about their relations. -/
theorem map_entities_resolve {α : Type} (catalog : Catalog) (property : Entity → α)
    (hproperty : ∀ entity relations,
      property { entity with relations := relations } = property entity) :
    catalog.resolve.entities.map property = catalog.entities.map property := by
  rw [entities_resolve, List.map_map]
  apply List.map_congr_left
  intro entity _
  obtain ⟨after, hafter⟩ := Entity.exists_foldl_attached_eq entity _
  rw [Function.comp_apply, hafter, hproperty]

namespace Awaiting

open EntityModel.Relation

variable (hawaiting : catalog.Awaiting)

include hawaiting

theorem distinct_resolve : catalog.resolve.Distinct :=
  hawaiting.distinct.of_map_eq (map_entities_resolve catalog _ fun _ _ => rfl)
    (map_entities_resolve catalog _ fun _ _ => rfl)

/-- Every waiting relation starts from one entity, which has its table variable and its name. -/
theorem exists_entity {place : Nat} {stub : Relation} (hstub : catalog.stubs[place]? = some stub) :
    ∃ entity ∈ catalog.resolve.entities,
      entity.binding = stub.fromBinding ∧ entity.name = stub.fromEntity := by
  obtain ⟨owner, howner, hbinding, hname⟩ := hawaiting.owned stub (List.mem_of_getElem? hstub)
  obtain ⟨after, hafter⟩ := Entity.exists_foldl_attached_eq owner (pairAll catalog.stubs)
  refine ⟨{ owner with relations := after }, ?_, hbinding, hname⟩
  rw [entities_resolve, ← hafter]
  exact List.mem_map_of_mem howner

theorem binding_eq_iff {entity : Entity} (hentity : entity ∈ catalog.resolve.entities)
    {place : Nat} {stub : Relation} (hstub : catalog.stubs[place]? = some stub) :
    entity.binding = stub.fromBinding ↔ entity.name = stub.fromEntity := by
  obtain ⟨owner, howner, hbinding, hname⟩ := hawaiting.exists_entity hstub
  constructor
  · intro heq
    rw [hawaiting.distinct_resolve.eq_of_binding hentity howner (heq.trans hbinding.symm), hname]
  · intro heq
    rw [hawaiting.distinct_resolve.eq_of_name hentity howner (heq.trans hname.symm), hbinding]

theorem fromBinding_eq_of_fromEntity_eq {place other : Nat} {stub stub' : Relation}
    (hstub : catalog.stubs[place]? = some stub) (hstub' : catalog.stubs[other]? = some stub')
    (heq : stub'.fromEntity = stub.fromEntity) : stub'.fromBinding = stub.fromBinding := by
  obtain ⟨entity, hentity, hbinding, hname⟩ := hawaiting.exists_entity hstub'
  rw [← hbinding]
  exact (hawaiting.binding_eq_iff hentity hstub).mpr (hname.trans heq)

/-- An entity gets the relations of its table variable that are kept. -/
theorem mem_relations_resolve_iff {entity : Entity} (hentity : entity ∈ catalog.resolve.entities)
    {relation : Relation} : relation ∈ entity.relations ↔
      relation.fromBinding = entity.binding ∧
        ∃ place, (pairAll catalog.stubs)[place]? = some relation ∧ IsKept catalog.stubs place := by
  rw [entities_resolve] at hentity
  obtain ⟨former, hformer, rfl⟩ := List.mem_map.mp hentity
  obtain ⟨after, hafter⟩ := Entity.exists_foldl_attached_eq former (pairAll catalog.stubs)
  have hnone : former.relation? relation.localName = none := by
    rw [Entity.relation?, hawaiting.relations_eq former hformer, List.find?_nil]
  rw [Entity.relations_foldl_attached, hawaiting.relations_eq former hformer, List.nil_append,
    Entity.mem_gained_iff, hafter]
  simp [hnone, isKept_pairAll_iff]

/-- A relation of an entity with an inverse side is a kept side of a link. -/
theorem exists_linked {entity : Entity} (hentity : entity ∈ catalog.resolve.entities)
    {relation : Relation} (hmem : relation ∈ entity.relations) {inverse : String}
    (hinverse : relation.inverseSide = some inverse) :
    ∃ place other stub partner, Linked catalog.stubs place other ∧
      catalog.stubs[place]? = some stub ∧ catalog.stubs[other]? = some partner ∧
      IsKept catalog.stubs place ∧ relation = side (place < other) stub partner ∧
      inverse = partner.localName ∧ entity.name = stub.fromEntity := by
  obtain ⟨hbinding, place, hresult, hkept⟩ := (hawaiting.mem_relations_resolve_iff hentity).mp hmem
  obtain ⟨stub, hstub, ⟨_, rfl⟩ | ⟨other, partner, hlinked, hpartner, rfl⟩⟩ :=
    getElem?_pairAll_cases hresult
  · rw [(hawaiting.declared _ (List.mem_of_getElem? hstub)).inverseSide_eq] at hinverse
    cases hinverse
  · rw [inverseSide_side, Option.some.injEq] at hinverse
    rw [fromBinding_side] at hbinding
    have hname := (hawaiting.binding_eq_iff hentity hstub).mp hbinding.symm
    exact ⟨place, other, stub, partner, hlinked, hstub, hpartner, hkept, rfl, hinverse.symm, hname⟩

theorem side_mem_relations {entity : Entity} (hentity : entity ∈ catalog.resolve.entities)
    {place other : Nat} {stub partner : Relation} (hlinked : Linked catalog.stubs place other)
    (hstub : catalog.stubs[place]? = some stub) (hpartner : catalog.stubs[other]? = some partner)
    (hkept : IsKept catalog.stubs place) (hname : entity.name = stub.fromEntity) :
    side (place < other) stub partner ∈ entity.relations := by
  apply (hawaiting.mem_relations_resolve_iff hentity).mpr
  refine ⟨?_, place, hlinked.getElem?_pairAll hstub hpartner, hkept⟩
  rw [fromBinding_side]
  exact ((hawaiting.binding_eq_iff hentity hstub).mpr hname).symm

/-- If two kept sides of links name each other, they are linked or the same. -/
theorem eq_of_named {place other back mate : Nat} {stub partner stub' partner' : Relation}
    (hlinked : Linked catalog.stubs place other) (hlinked' : Linked catalog.stubs back mate)
    (hstub : catalog.stubs[place]? = some stub) (hpartner : catalog.stubs[other]? = some partner)
    (hstub' : catalog.stubs[back]? = some stub')
    (hpartner' : catalog.stubs[mate]? = some partner') (hkept : IsKept catalog.stubs place)
    (hkept' : IsKept catalog.stubs back) (hfrom : stub'.fromEntity = stub.toEntity)
    (hto : stub'.toEntity = stub.fromEntity) (hname : stub'.localName = partner.localName)
    (hname' : partner'.localName = stub.localName) :
    back = other ∨ back = place ∧ mate = other := by
  obtain ⟨hfrom₁, _⟩ := hlinked.direction hstub hpartner
  obtain ⟨hfrom₂, hto₂⟩ := hlinked'.direction hstub' hpartner'
  have hbinding := hawaiting.fromBinding_eq_of_fromEntity_eq hstub hpartner' (hfrom₂.trans hto)
  have hbinding' :=
    hawaiting.fromBinding_eq_of_fromEntity_eq hpartner hstub' (hfrom.trans hfrom₁.symm)
  have hle := hkept.le hstub hpartner' hbinding hname'
  have hle' := hkept'.le hstub' hpartner hbinding'.symm hname.symm
  -- Each of the kept sides is the first with its name, so neither stands after its namesake.
  rcases Nat.eq_or_lt_of_le hle with rfl | hlt
  · exact Or.inl (hlinked'.symm.unique hlinked)
  · rcases Nat.eq_or_lt_of_le hle' with rfl | hgt
    · exact Or.inl rfl
    · -- Both links have the direction of the first one, so they would cross.
      have hleads := leadsAt_of_getElem? hstub
      have hleads' := leadsAt_of_getElem? hpartner'
      rw [hfrom₂.trans hto, hto₂.trans hfrom] at hleads'
      have hsame := (linked_iff_matched.mp hlinked).ordered
        (linked_iff_matched.mp hlinked'.symm) hleads hleads' hlt hgt
      exact Or.inr ⟨hsame.2, hsame.1⟩

/-- What an entity keeps of its pairs is mutual, if these survive. -/
theorem inverseSidesMutual (hsurvive : PairsSurvive catalog.stubs) :
    catalog.resolve.InverseSidesMutual := by
  intro entity hentity relation hmem inverse hinverse
  obtain ⟨place, other, stub, partner, hlinked, hstub, hpartner, hkept, rfl, rfl, hname⟩ :=
    hawaiting.exists_linked hentity hmem hinverse
  obtain ⟨hfrom, hto⟩ := hlinked.direction hstub hpartner
  rcases hsurvive place other stub partner hlinked hstub hpartner hkept with
    hkept' | ⟨hbinding, hlocal⟩
  · obtain ⟨target, htarget, _, htargetName⟩ := hawaiting.exists_entity hpartner
    have hback := hawaiting.side_mem_relations htarget hlinked.symm hpartner hstub hkept'
      htargetName
    refine ⟨target, htarget, ?_, _, hback, ?_, ?_, ?_⟩
    · rw [toEntity_side, htargetName, hfrom]
    · rw [localName_side]
    · rw [toEntity_side, hto, hname]
    · rw [inverseSide_side, localName_side]
  · -- The other side is dropped for this one, which bears its name.
    have hself : entity.name = stub.toEntity := by
      rw [← hfrom]
      apply (hawaiting.binding_eq_iff hentity hpartner).mp
      rw [hbinding]
      exact (hawaiting.binding_eq_iff hentity hstub).mpr hname
    refine ⟨entity, hentity, ?_, _, hmem, ?_, ?_, ?_⟩
    · rw [toEntity_side, hself]
    · rw [localName_side, hlocal]
    · rw [toEntity_side, hself]
    · rw [inverseSide_side, localName_side, hlocal]

/-- If inverse sides are mutual, no pair loses just one of its sides. -/
theorem pairsSurvive (hmutual : catalog.resolve.InverseSidesMutual) :
    PairsSurvive catalog.stubs := by
  intro place other stub partner hlinked hstub hpartner hkept
  obtain ⟨source, hsource, _, hsourceName⟩ := hawaiting.exists_entity hstub
  have hmem := hawaiting.side_mem_relations hsource hlinked hstub hpartner hkept hsourceName
  obtain ⟨target, htarget, htargetName, back, hback, hlocal, hto, hinverse⟩ :=
    hmutual source hsource _ hmem partner.localName (inverseSide_side _ _ _)
  -- What leads back is a side of a link itself, with the names of the first one reversed.
  obtain ⟨place', other', stub', partner', hlinked', hstub', hpartner', hkept', rfl, hname',
    hfrom'⟩ := hawaiting.exists_linked htarget hback hinverse
  rw [toEntity_side] at hto htargetName
  rw [localName_side] at hlocal hname'
  rw [hsourceName] at hto
  rw [htargetName] at hfrom'
  rcases hawaiting.eq_of_named hlinked hlinked' hstub hpartner hstub' hpartner' hkept hkept'
    hfrom'.symm hto hlocal hname'.symm with rfl | ⟨rfl, rfl⟩
  · exact Or.inl hkept'
  · obtain rfl := Option.some.inj (hstub.symm.trans hstub')
    obtain rfl := Option.some.inj (hpartner.symm.trans hpartner')
    refine Or.inr ⟨?_, hname'.symm⟩
    apply hawaiting.fromBinding_eq_of_fromEntity_eq hstub hpartner
    rw [(hlinked.direction hstub hpartner).1, ← hfrom']

end Awaiting

/-- The inverse sides of a project are mutual exactly if no pair of its relations loses just one
side to another relation of its name. -/
theorem inverseSidesMutual_ofModules_iff (builders : Builders) (modules : List Module) :
    (ofModules builders modules).InverseSidesMutual ↔
      Relation.PairsSurvive (collected builders modules).stubs := by
  have hawaiting := awaiting_collected builders modules
  rw [ofModules_eq_resolve]
  exact ⟨hawaiting.pairsSurvive, hawaiting.inverseSidesMutual⟩

/-- Users declare their posts in two places, so that the editor of a post is left with an inverse
side that names its author. -/
theorem not_inverseSidesMutual_twicePosted : ¬ (ofModules Builders.usual [⟨"blog.ts", [
    ⟨"users", .call (.ident "pgTable") [.string "users", .object []]⟩,
    ⟨"posts", .call (.ident "pgTable") [.string "posts", .object []]⟩,
    ⟨"usersRelations", .call (.ident "relations") [.ident "users", .arrow ["{ many }"]
      (.object [("posts", .call (.ident "many") [.ident "posts"])])]⟩,
    ⟨"moreUsersRelations", .call (.ident "relations") [.ident "users", .arrow ["{ many }"]
      (.object [("posts", .call (.ident "many") [.ident "posts"])])]⟩,
    ⟨"postsRelations", .call (.ident "relations") [.ident "posts", .arrow ["{ one }"]
      (.object [("author", .call (.ident "one") [.ident "users"]),
        ("editor", .call (.ident "one") [.ident "users"])])]⟩]⟩]).InverseSidesMutual := by
  decide +kernel

end Catalog

end EntityModel
