import EntityModel.Proofs.Pairing.Matching

/-!
# Pairing a part of the relations

Ranks are counted among the relations of one direction, and a relation is only paired with one that
leads back. So the relations that start from some of the entities are paired as if the others were
not there, wherever those stand in the list, provided that none of the others leads back from one of
them.
-/

namespace EntityModel

/-! ## Places among the items that are kept -/

section Kept

variable {α : Type} {keep : α → Bool} {items : List α}

/-- An item that is kept stands behind the items that are kept before it. -/
theorem getElem?_filter_countP {place : Nat} {item : α} (hat : items[place]? = some item)
    (hkeep : keep item = true) :
    (items.filter keep)[(items.take place).countP keep]? = some item := by
  obtain ⟨hplace, rfl⟩ := List.getElem?_eq_some_iff.mp hat
  have hsplit : items = items.take place ++ items[place] :: items.drop (place + 1) := by simp
  have hfilter : items.filter keep = (items.take place).filter keep ++
      items[place] :: (items.drop (place + 1)).filter keep := by
    conv_lhs => rw [hsplit]
    rw [List.filter_append, List.filter_cons_of_pos hkeep]
  rw [hfilter, List.countP_eq_length_filter, List.getElem?_append_right (Nat.le_refl _)]
  simp

theorem exists_place_of_getElem?_filter {index : Nat} {item : α}
    (hat : (items.filter keep)[index]? = some item) :
    ∃ place, items[place]? = some item ∧ (items.take place).countP keep = index := by
  induction items generalizing index with
  | nil => simp at hat
  | cons head items ih =>
      by_cases hkeep : keep head = true
      · rw [List.filter_cons_of_pos hkeep] at hat
        cases index with
        | zero => exact ⟨0, by simpa using hat, rfl⟩
        | succ index =>
            obtain ⟨place, hplace, hcount⟩ := ih (by simpa using hat)
            exact ⟨place + 1, by simpa using hplace, by simp [hkeep, hcount]⟩
      · rw [List.filter_cons_of_neg hkeep] at hat
        obtain ⟨place, hplace, hcount⟩ := ih hat
        exact ⟨place + 1, by simpa using hplace, by simp [hkeep, hcount]⟩

theorem take_filter_countP (keep : α → Bool) (items : List α) (place : Nat) :
    (items.filter keep).take ((items.take place).countP keep) =
      (items.take place).filter keep := by
  conv_lhs => rw [← List.take_append_drop place items, List.filter_append]
  rw [List.take_append_drop, List.countP_eq_length_filter, List.take_left]

theorem countP_take_lt_iff {place other : Nat} {item item' : α} (hat : items[place]? = some item)
    (hother : items[other]? = some item') (hkeep : keep item = true) (hkeep' : keep item' = true) :
    (items.take place).countP keep < (items.take other).countP keep ↔ place < other := by
  have hlt : ∀ {first second : Nat} {former : α}, items[first]? = some former →
      keep former = true → first < second →
      (items.take first).countP keep < (items.take second).countP keep := by
    intro first second former hfirst hformer hbefore
    calc (items.take first).countP keep
        < (items.take (first + 1)).countP keep := by
          simp [List.take_add_one, hfirst, List.countP_append, hformer]
      _ ≤ (items.take second).countP keep :=
          (List.take_sublist_take_left hbefore).countP_le
  refine ⟨fun hcounts => ?_, hlt hat hkeep⟩
  rcases Nat.lt_trichotomy place other with hbefore | rfl | hafter
  · exact hbefore
  · omega
  · have hcounts' := hlt hother hkeep' hafter
    omega

end Kept

namespace Relation

variable {relations : List Relation} {keep : String → Bool} {source target : String}

@[simp] theorem fromEntity_side (isFirst : Bool) (relation partner : Relation) :
    (side isFirst relation partner).fromEntity = relation.fromEntity := by
  obtain ⟨_, _, hside⟩ := side_eq_asSide isFirst relation partner
  rw [hside, asSide]

theorem map_fromEntity_pairAll (relations : List Relation) :
    (pairAll relations).map (·.fromEntity) = relations.map (·.fromEntity) := by
  apply List.ext_getElem?
  intro place
  rw [List.getElem?_map, List.getElem?_map]
  cases hresult : (pairAll relations)[place]? with
  | none =>
      rw [List.getElem?_eq_none_iff, length_pairAll, ← List.getElem?_eq_none_iff] at hresult
      rw [hresult]
  | some relation =>
      obtain ⟨before, hbefore, ⟨_, rfl⟩ | ⟨_, _, _, _, rfl⟩⟩ := getElem?_pairAll_cases hresult
      · rw [hbefore]
      · rw [hbefore, Option.map_some, Option.map_some, fromEntity_side]

/-! ## Ranks among the relations that are kept -/

/-- Relations that start from some of the entities. -/
def startingFrom (keep : String → Bool) (relations : List Relation) : List Relation :=
  relations.filter fun relation => keep relation.fromEntity

/-- The place among the relations that start from some of the entities. -/
def placeAmong (keep : String → Bool) (relations : List Relation) (place : Nat) : Nat :=
  (relations.take place).countP fun relation => keep relation.fromEntity

theorem getElem?_startingFrom {place : Nat} {relation : Relation}
    (hat : relations[place]? = some relation) (hkeep : keep relation.fromEntity = true) :
    (startingFrom keep relations)[placeAmong keep relations place]? = some relation :=
  getElem?_filter_countP hat hkeep

theorem exists_place_of_startingFrom {index : Nat} {relation : Relation}
    (hat : (startingFrom keep relations)[index]? = some relation) :
    keep relation.fromEntity = true ∧ ∃ place, relations[place]? = some relation ∧
      placeAmong keep relations place = index :=
  ⟨(List.mem_filter.mp (List.mem_of_getElem? hat)).2, exists_place_of_getElem?_filter hat⟩

theorem count_leadsAt (relations : List Relation) (source target : String) (place : Nat) :
    Nat.count (leadsAt relations source target · = true) place =
      (relations.take place).countP fun relation =>
        relation.fromEntity = source && relation.toEntity = target := by
  induction place with
  | zero => simp
  | succ place ih =>
      rw [Nat.count_succ, ih, List.take_add_one, List.countP_append, leadsAt]
      cases relations[place]? <;> simp

/-- A relation that starts from a kept entity has the same rank among those that are kept. -/
theorem isNth_startingFrom_iff {rank place : Nat} {relation : Relation}
    (hat : relations[place]? = some relation) (hkeep : keep relation.fromEntity = true)
    (hsource : keep source = true) :
    IsNth (startingFrom keep relations) source target rank (placeAmong keep relations place) ↔
      IsNth relations source target rank place := by
  have hleads : leadsAt (startingFrom keep relations) source target
      (placeAmong keep relations place) = leadsAt relations source target place := by
    rw [leadsAt, leadsAt, getElem?_startingFrom hat hkeep, hat]
  -- What leads from the source is kept, so the same relations are counted.
  have hcount : Nat.count (leadsAt (startingFrom keep relations) source target · = true)
      (placeAmong keep relations place) =
      Nat.count (leadsAt relations source target · = true) place := by
    rw [count_leadsAt, count_leadsAt, startingFrom, placeAmong, take_filter_countP,
      List.countP_filter]
    apply List.countP_congr
    intro other _
    by_cases hfrom : other.fromEntity = source <;> simp [hfrom, hsource]
  rw [IsNth, IsNth, hleads, hcount]

theorem matched_startingFrom_iff {first second : Nat} {left right : Relation}
    (hleft : relations[first]? = some left) (hright : relations[second]? = some right)
    (hkeep : keep left.fromEntity = true) (hkeep' : keep right.fromEntity = true) :
    Matched (startingFrom keep relations) (placeAmong keep relations first)
        (placeAmong keep relations second) ↔ Matched relations first second := by
  constructor
  · rintro ⟨source, target, rank, hfirst, hsecond⟩
    obtain ⟨_, hat, rfl, _⟩ := leadsAt_iff.mp hfirst.1
    obtain rfl := Option.some.inj ((getElem?_startingFrom hleft hkeep).symm.trans hat)
    obtain ⟨_, hat', rfl, _⟩ := leadsAt_iff.mp hsecond.1
    obtain rfl := Option.some.inj ((getElem?_startingFrom hright hkeep').symm.trans hat')
    exact ⟨_, _, rank, (isNth_startingFrom_iff hleft hkeep hkeep).mp hfirst,
      (isNth_startingFrom_iff hright hkeep' hkeep').mp hsecond⟩
  · rintro ⟨source, target, rank, hfirst, hsecond⟩
    obtain ⟨_, hat, rfl, _⟩ := leadsAt_iff.mp hfirst.1
    obtain rfl := Option.some.inj (hleft.symm.trans hat)
    obtain ⟨_, hat', rfl, _⟩ := leadsAt_iff.mp hsecond.1
    obtain rfl := Option.some.inj (hright.symm.trans hat')
    exact ⟨_, _, rank, (isNth_startingFrom_iff hleft hkeep hkeep).mpr hfirst,
      (isNth_startingFrom_iff hright hkeep' hkeep').mpr hsecond⟩

/-! ## Pairing what is kept -/

/-- Whether what leads back from a kept relation is kept itself. -/
def IsClosed (keep : String → Bool) (relations : List Relation) : Prop :=
  ∀ relation ∈ relations, ∀ back ∈ relations, keep relation.fromEntity = true →
    back.isReverseOf relation = true → keep back.fromEntity = true

theorem getElem?_pairAll_startingFrom (hclosed : IsClosed keep relations) {place : Nat}
    {relation : Relation} (hat : relations[place]? = some relation)
    (hkeep : keep relation.fromEntity = true) :
    (pairAll (startingFrom keep relations))[placeAmong keep relations place]? =
      (pairAll relations)[place]? := by
  by_cases hmatched : ∃ other, Matched relations place other
  · obtain ⟨other, hmatched⟩ := hmatched
    obtain ⟨_, partner, hat', hother, hreverse⟩ := hmatched.exists_getElem?
    obtain rfl := Option.some.inj (hat.symm.trans hat')
    have hkeep' := hclosed _ (List.mem_of_getElem? hat) _ (List.mem_of_getElem? hother) hkeep
      hreverse
    have hamong := (matched_startingFrom_iff hat hother hkeep hkeep').mpr hmatched
    have hbefore : placeAmong keep relations place < placeAmong keep relations other ↔
        place < other := countP_take_lt_iff hat hother hkeep hkeep'
    rw [(linked_iff_matched.mpr hmatched).getElem?_pairAll hat hother,
      (linked_iff_matched.mpr hamong).getElem?_pairAll (getElem?_startingFrom hat hkeep)
        (getElem?_startingFrom hother hkeep'), decide_eq_decide.mpr hbefore]
  · -- A mate among the kept ones would be one in the whole list.
    rw [not_exists] at hmatched
    rw [getElem?_pairAll_of_unmatched hmatched, getElem?_pairAll_of_unmatched,
      getElem?_startingFrom hat hkeep, hat]
    intro index hamong
    obtain ⟨_, _, _, hright, _⟩ := hamong.exists_getElem?
    obtain ⟨hkeep', other, hother, rfl⟩ := exists_place_of_startingFrom hright
    exact hmatched other ((matched_startingFrom_iff hat hother hkeep hkeep').mp hamong)

/-- The relations that start from some of the entities are paired as if they were alone. -/
theorem startingFrom_pairAll (hclosed : IsClosed keep relations) :
    startingFrom keep (pairAll relations) = pairAll (startingFrom keep relations) := by
  -- Pairing keeps what relations start from, so the places among the kept ones stay.
  have hplace : ∀ place, placeAmong keep (pairAll relations) place =
      placeAmong keep relations place := by
    intro place
    have hmap := congrArg (fun names => (names.take place).countP keep)
      (map_fromEntity_pairAll relations)
    simp only [← List.map_take, List.countP_map] at hmap
    exact hmap
  have hlength : (startingFrom keep (pairAll relations)).length =
      (pairAll (startingFrom keep relations)).length := by
    have hall := hplace relations.length
    rw [placeAmong, List.take_of_length_le (Nat.le_of_eq (length_pairAll relations)), placeAmong,
      List.take_length] at hall
    rw [length_pairAll, startingFrom, startingFrom, ← List.countP_eq_length_filter,
      ← List.countP_eq_length_filter, hall]
  apply List.ext_getElem?
  intro index
  cases hat : (startingFrom keep (pairAll relations))[index]? with
  | none =>
      rw [List.getElem?_eq_none_iff, hlength, ← List.getElem?_eq_none_iff] at hat
      exact hat.symm
  | some relation =>
      obtain ⟨hkeep, place, hresult, rfl⟩ := exists_place_of_startingFrom hat
      obtain ⟨before, hbefore, hfrom⟩ : ∃ before, relations[place]? = some before ∧
          relation.fromEntity = before.fromEntity := by
        obtain ⟨before, hbefore, ⟨_, rfl⟩ | ⟨_, _, _, _, rfl⟩⟩ := getElem?_pairAll_cases hresult
        · exact ⟨_, hbefore, rfl⟩
        · exact ⟨_, hbefore, fromEntity_side _ _ _⟩
      rw [hplace, getElem?_pairAll_startingFrom hclosed hbefore (hfrom ▸ hkeep), hresult]

end Relation

end EntityModel
