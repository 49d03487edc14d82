import EntityModel.Proofs.Pairing.Rank

/-!
# The pairing matches by rank

The turns of the pairing link exactly the relations whose ranks match. The invariant of the turns
(`Progress`) says which slots are settled after some of them: those of a matched pair whose earlier
side had its turn.
-/

namespace EntityModel.Relation

variable {relations : List Relation}

/-- Whether the relation at a place takes the one at another place in its turn. -/
def Takes (relations : List Relation) (place other : Nat) : Prop :=
  ∃ slots, afterTurns? relations place = some slots ∧ partner? slots place = some other

/-- Whether the pairing makes the relations at two places the sides of a pair. -/
def Linked (relations : List Relation) (first second : Nat) : Prop :=
  Takes relations first second ∨ Takes relations second first

/-- What holds of the slots after some turns: a relation waits as it was declared unless the
earlier side of its matched pair had its turn; then both sides are linked. -/
structure Progress (relations : List Relation) (count : Nat) (slots : List Slot) : Prop where
  length_eq : slots.length = relations.length
  waiting : ∀ {place relation}, relations[place]? = some relation →
    (∀ other, Matched relations place other → count ≤ place ∧ count ≤ other) →
    slots[place]? = some ⟨relation, false⟩
  settled : ∀ {first second left right}, relations[first]? = some left →
    relations[second]? = some right → Matched relations first second → first < second →
    first < count → slots[first]? = some ⟨(link left right).1, true⟩ ∧
      slots[second]? = some ⟨(link left right).2, true⟩

theorem Progress.initial (relations : List Relation) :
    Progress relations 0 (relations.map (⟨·, false⟩)) where
  length_eq := List.length_map _
  waiting hat _ := by simp [hat]
  settled _ _ _ _ hlt := absurd hlt (Nat.not_lt_zero _)

theorem Matched.exists_getElem? {first second : Nat} (hmatched : Matched relations first second) :
    ∃ left right, relations[first]? = some left ∧ relations[second]? = some right ∧
      right.isReverseOf left = true := by
  obtain ⟨source, target, rank, hfirst, hsecond⟩ := hmatched
  obtain ⟨left, hleft, rfl, rfl⟩ := leadsAt_iff.mp hfirst.1
  obtain ⟨right, hright, hback⟩ := leadsAt_iff.mp hsecond.1
  exact ⟨left, right, hleft, hright, by simp [isReverseOf, hback]⟩

namespace Progress

variable {count : Nat} {slots : List Slot}

/-- A slot that is still open holds the relation as declared, and its mate had no turn. -/
theorem of_open (hprogress : Progress relations count slots) {place : Nat} {relation : Relation}
    (hslot : slots[place]? = some ⟨relation, false⟩) :
    relations[place]? = some relation ∧
      ∀ other, Matched relations place other → count ≤ place ∧ count ≤ other := by
  have hwaits : ∀ other, Matched relations place other → count ≤ place ∧ count ≤ other := by
    intro other hmatched
    obtain ⟨left, right, hleft, hright, _⟩ := hmatched.exists_getElem?
    have hne := hmatched.ne
    by_contra hturn
    rcases Nat.lt_or_ge place other with hlt | hge
    · have hsettled := (hprogress.settled hleft hright hmatched hlt (by omega)).1
      simp [hslot] at hsettled
    · have hsettled := (hprogress.settled hright hleft hmatched.symm (by omega) (by omega)).2
      simp [hslot] at hsettled
  have hplace : place < relations.length := by
    rw [← hprogress.length_eq]
    exact (List.getElem?_eq_some_iff.mp hslot).1
  have hsame := hprogress.waiting (List.getElem?_eq_getElem hplace) hwaits
  obtain rfl : relations[place] = relation :=
    congrArg Slot.relation (Option.some.inj (hsame.symm.trans hslot))
  exact ⟨List.getElem?_eq_getElem hplace, hwaits⟩

/-- The slot of the mate of an open relation in its turn is open to it. -/
theorem isOpenTo_of_matched (hprogress : Progress relations count slots) {relation : Relation}
    (hslot : slots[count]? = some ⟨relation, false⟩) {other : Nat}
    (hmatched : Matched relations count other) :
    ∃ slot, slots[other]? = some slot ∧ slot.isOpenTo relation = true := by
  obtain ⟨hat, hwaits⟩ := hprogress.of_open hslot
  obtain ⟨left, right, hleft, hright, hreverse⟩ := hmatched.exists_getElem?
  obtain rfl := Option.some.inj (hat.symm.trans hleft)
  refine ⟨⟨right, false⟩, hprogress.waiting hright ?_, by simpa [Slot.isOpenTo] using hreverse⟩
  intro back hback
  obtain rfl := hmatched.symm.unique hback
  exact (hwaits other hmatched).symm

/-- What an open relation takes in its turn is its mate. -/
theorem matched_of_partner? (hprogress : Progress relations count slots)
    (hexhausted : Exhausted slots count) {other : Nat}
    (hpartner : partner? slots count = some other) : Matched relations count other := by
  have hlt := hexhausted.lt_of_partner? hpartner
  obtain ⟨relation, ⟨right, paired⟩, hslot, hright, _, hback, hfirst⟩ :=
    partner?_eq_some hpartner
  simp only [Slot.isOpenTo, Bool.and_eq_true, Bool.not_eq_true'] at hback
  obtain ⟨rfl, hreverse⟩ := hback
  obtain ⟨hat, hwaits⟩ := hprogress.of_open hslot
  obtain ⟨hother, hfree⟩ := hprogress.of_open hright
  simp only [isReverseOf, Bool.and_eq_true, decide_eq_true_eq] at hreverse
  have hleads := leadsAt_of_getElem? hother
  rw [hreverse.1, hreverse.2] at hleads
  obtain ⟨found, hafter, hle, hmatched⟩ := exists_matched hlt (leadsAt_of_getElem? hat) hleads
    (fun earlier hearlier hmatched => absurd (hwaits earlier hmatched).2 (Nat.not_le.mpr hearlier))
    (fun earlier hearlier hmatched => absurd (hfree earlier hmatched).2 (Nat.not_le.mpr hearlier))
  -- The mate is open, so the first open slot is not after it.
  obtain ⟨slot, hfound, hopen⟩ := hprogress.isOpenTo_of_matched hslot hmatched
  rcases Nat.lt_or_eq_of_le hle with hless | rfl
  · rw [hfirst found slot hless (Nat.ne_of_gt hafter) hfound] at hopen
    cases hopen
  · exact hmatched

theorem partner?_of_matched (hprogress : Progress relations count slots)
    (hexhausted : Exhausted slots count) {relation : Relation}
    (hslot : slots[count]? = some ⟨relation, false⟩) {other : Nat}
    (hmatched : Matched relations count other) : partner? slots count = some other := by
  obtain ⟨slot, hfound, hopen⟩ := hprogress.isOpenTo_of_matched hslot hmatched
  cases hpartner : partner? slots count with
  | none =>
      rw [isOpenTo_of_partner?_eq_none hslot hpartner hmatched.ne.symm hfound] at hopen
      cases hopen
  | some found =>
      rw [hmatched.unique (hprogress.matched_of_partner? hexhausted hpartner)]

/-- The earlier side of a pair is open when its turn comes. -/
theorem slot_of_matched (hprogress : Progress relations count slots) {other : Nat}
    {relation : Relation} (hat : relations[count]? = some relation)
    (hmatched : Matched relations count other) (hlt : count < other) :
    slots[count]? = some ⟨relation, false⟩ := by
  refine hprogress.waiting hat fun back hback => ?_
  obtain rfl := hmatched.unique hback
  exact ⟨le_rfl, hlt.le⟩

/-- A turn that pairs nothing leaves everything as far as it was. -/
theorem succ_of_partner?_eq_none (hprogress : Progress relations count slots)
    (hexhausted : Exhausted slots count) (hpartner : partner? slots count = none) :
    Progress relations (count + 1) slots := by
  refine ⟨hprogress.length_eq, fun hat hwaits => hprogress.waiting hat fun mate hmate => ?_, ?_⟩
  · have hlater := hwaits mate hmate
    omega
  · intro first second left right hleft hright hmatched hlt hfirst
    rcases Nat.lt_succ_iff_lt_or_eq.mp hfirst with hbefore | rfl
    · exact hprogress.settled hleft hright hmatched hlt hbefore
    · have hslot := hprogress.slot_of_matched hleft hmatched hlt
      rw [hprogress.partner?_of_matched hexhausted hslot hmatched] at hpartner
      cases hpartner

/-- A turn that pairs two slots settles them and leaves the other ones. -/
theorem succ_of_set (hprogress : Progress relations count slots) {other : Nat}
    {left right : Relation} (hleft : slots[count]? = some ⟨left, false⟩)
    (hright : slots[other]? = some ⟨right, false⟩) (hmatched : Matched relations count other)
    (hlt : count < other) :
    Progress relations (count + 1)
      ((slots.set count ⟨(link left right).1, true⟩).set other ⟨(link left right).2, true⟩) := by
  refine ⟨by simp [hprogress.length_eq], ?_, ?_⟩
  · intro place relation hat hwaits
    -- The paired ones do not wait any more, so this is another slot.
    have hplace : place ≠ count := by
      rintro rfl
      have hlater := hwaits other hmatched
      omega
    have hother : place ≠ other := by
      rintro rfl
      have hlater := hwaits count hmatched.symm
      omega
    have hslot := hprogress.waiting hat fun mate hmate => by
      have hlater := hwaits mate hmate
      omega
    rw [List.getElem?_set_ne hother.symm, List.getElem?_set_ne hplace.symm, hslot]
  · intro first second left' right' hleft' hright' hmatched' hlt' hfirst
    rcases Nat.lt_succ_iff_lt_or_eq.mp hfirst with hbefore | rfl
    · -- Slots that are settled are not open, so this turn leaves them as they are.
      obtain ⟨hsettled, hsettled'⟩ :=
        hprogress.settled hleft' hright' hmatched' hlt' hbefore
      grind
    · obtain rfl := hmatched.unique hmatched'
      obtain rfl := Option.some.inj ((hprogress.of_open hleft).1.symm.trans hleft')
      obtain rfl := Option.some.inj ((hprogress.of_open hright).1.symm.trans hright')
      grind

/-- One turn makes progress. -/
theorem step (hprogress : Progress relations count slots) (hexhausted : Exhausted slots count)
    {next : List Slot} (hturn : turn? slots count = some next) :
    Progress relations (count + 1) next := by
  rcases hexhausted.turn?_cases with ⟨hpartner, hsame⟩ |
    ⟨other, left, right, hpartner, hlt, hleft, hright, _, hset⟩
  · obtain rfl : slots = next := Option.some.inj (hsame.symm.trans hturn)
    exact hprogress.succ_of_partner?_eq_none hexhausted hpartner
  · obtain rfl := Option.some.inj (hset.symm.trans hturn)
    exact hprogress.succ_of_set hleft hright
      (hprogress.matched_of_partner? hexhausted hpartner) hlt

end Progress

theorem exists_progress (relations : List Relation) (count : Nat) :
    ∃ slots, afterTurns? relations count = some slots ∧ Exhausted slots count ∧
      Progress relations count slots := by
  induction count with
  | zero =>
      obtain ⟨_, hslots, hexhausted⟩ := exists_afterTurns? relations 0
      obtain rfl := Option.some.inj hslots
      exact ⟨_, rfl, hexhausted, Progress.initial relations⟩
  | succ count ih =>
      obtain ⟨slots, hslots, hexhausted, hprogress⟩ := ih
      obtain ⟨next, hnext, hexhausted'⟩ := exists_afterTurns? relations (count + 1)
      refine ⟨next, hnext, hexhausted', hprogress.step hexhausted ?_⟩
      simpa [afterTurns?, hslots] using hnext

/-- A relation takes its mate in its turn, if that one stands later. -/
theorem takes_iff {first second : Nat} :
    Takes relations first second ↔ Matched relations first second ∧ first < second := by
  obtain ⟨slots, hslots, hexhausted, hprogress⟩ := exists_progress relations first
  constructor
  · rintro ⟨slots', hslots', hpartner⟩
    obtain rfl := Option.some.inj (hslots.symm.trans hslots')
    exact ⟨hprogress.matched_of_partner? hexhausted hpartner,
      hexhausted.lt_of_partner? hpartner⟩
  · rintro ⟨hmatched, hlt⟩
    obtain ⟨left, _, hleft, _⟩ := hmatched.exists_getElem?
    have hslot := hprogress.slot_of_matched hleft hmatched hlt
    exact ⟨slots, hslots, hprogress.partner?_of_matched hexhausted hslot hmatched⟩

theorem linked_iff_matched {first second : Nat} :
    Linked relations first second ↔ Matched relations first second := by
  constructor
  · rintro (htakes | htakes)
    · exact (takes_iff.mp htakes).1
    · exact (takes_iff.mp htakes).1.symm
  · intro hmatched
    rcases Nat.lt_or_gt_of_ne hmatched.ne with hlt | hgt
    · exact Or.inl (takes_iff.mpr ⟨hmatched, hlt⟩)
    · exact Or.inr (takes_iff.mpr ⟨hmatched.symm, hgt⟩)

/-- The pairing results from the slots after the last turn. -/
theorem exists_pairAll_eq (relations : List Relation) :
    ∃ slots, afterTurns? relations relations.length = some slots ∧
      pairAll relations = slots.map (·.relation) ∧ Exhausted slots relations.length ∧
      Progress relations relations.length slots := by
  obtain ⟨slots, hslots, hexhausted, hprogress⟩ := exists_progress relations relations.length
  exact ⟨slots, hslots, by simp [pairAll, hslots], hexhausted, hprogress⟩

@[simp] theorem length_pairAll (relations : List Relation) :
    (pairAll relations).length = relations.length := by
  obtain ⟨slots, _, hresult, _, hprogress⟩ := exists_pairAll_eq relations
  rw [hresult, List.length_map, hprogress.length_eq]

theorem getElem?_pairAll_of_matched {first second : Nat} {left right : Relation}
    (hleft : relations[first]? = some left) (hright : relations[second]? = some right)
    (hmatched : Matched relations first second) (hlt : first < second) :
    (pairAll relations)[first]? = some (link left right).1 ∧
      (pairAll relations)[second]? = some (link left right).2 := by
  obtain ⟨slots, _, hresult, _, hprogress⟩ := exists_pairAll_eq relations
  have hfirst := (List.getElem?_eq_some_iff.mp hleft).1
  have hsettled := hprogress.settled hleft hright hmatched hlt hfirst
  simp [hresult, hsettled]

theorem getElem?_pairAll_of_unmatched {place : Nat}
    (hfree : ∀ other, ¬ Matched relations place other) :
    (pairAll relations)[place]? = relations[place]? := by
  obtain ⟨slots, _, hresult, _, hprogress⟩ := exists_pairAll_eq relations
  cases hat : relations[place]? with
  | none =>
      rw [List.getElem?_eq_none_iff] at hat ⊢
      simpa using hat
  | some relation =>
      have hslot := hprogress.waiting hat fun other hmatched => absurd hmatched (hfree other)
      simp [hresult, hslot]

theorem Linked.symm {first second : Nat} (hlinked : Linked relations first second) :
    Linked relations second first :=
  Or.symm hlinked

theorem Linked.unique {first second third : Nat} (hsecond : Linked relations first second)
    (hthird : Linked relations first third) : second = third :=
  (linked_iff_matched.mp hsecond).unique (linked_iff_matched.mp hthird)

theorem Linked.ne {first second : Nat} (hlinked : Linked relations first second) :
    first ≠ second :=
  (linked_iff_matched.mp hlinked).ne

/-- What becomes of a relation that is linked with another one, as the first or as the second side
of the pair. -/
def side (isFirst : Bool) (relation partner : Relation) : Relation :=
  if relation.builder = .many && partner.builder = .many then
    relation.asSide partner.localName .manyToMany isFirst
  else if relation.isPlainOne && partner.isPlainOne then
    relation.asSide partner.localName .oneToOne
      (relation.joinColumn.isSome && (isFirst || !partner.joinColumn.isSome))
  else relation.asRefinedSide partner.localName

theorem link_eq_side (first second : Relation) :
    link first second = (side true first second, side false second first) := by
  unfold link side
  rw [Bool.and_comm (second.builder = .many), Bool.and_comm second.isPlainOne]
  split
  · rfl
  · split
    · simp [Bool.and_comm]
    · rfl

/-- A side faces the other one; beyond that only its cardinality and ownership are settled. -/
theorem side_eq_asSide (isFirst : Bool) (relation partner : Relation) :
    ∃ cardinality isOwner,
      side isFirst relation partner = relation.asSide partner.localName cardinality isOwner := by
  unfold side asRefinedSide
  split_ifs <;> exact ⟨_, _, rfl⟩

@[simp] theorem fromBinding_side (isFirst : Bool) (relation partner : Relation) :
    (side isFirst relation partner).fromBinding = relation.fromBinding := by
  obtain ⟨_, _, hside⟩ := side_eq_asSide isFirst relation partner
  rw [hside, asSide]

@[simp] theorem localName_side (isFirst : Bool) (relation partner : Relation) :
    (side isFirst relation partner).localName = relation.localName := by
  obtain ⟨_, _, hside⟩ := side_eq_asSide isFirst relation partner
  rw [hside, asSide]

@[simp] theorem toEntity_side (isFirst : Bool) (relation partner : Relation) :
    (side isFirst relation partner).toEntity = relation.toEntity := by
  obtain ⟨_, _, hside⟩ := side_eq_asSide isFirst relation partner
  rw [hside, asSide]

@[simp] theorem inverseSide_side (isFirst : Bool) (relation partner : Relation) :
    (side isFirst relation partner).inverseSide = some partner.localName := by
  obtain ⟨_, _, hside⟩ := side_eq_asSide isFirst relation partner
  rw [hside, asSide]

@[simp] theorem builder_side (isFirst : Bool) (relation partner : Relation) :
    (side isFirst relation partner).builder = relation.builder := by
  obtain ⟨_, _, hside⟩ := side_eq_asSide isFirst relation partner
  rw [hside, asSide]

@[simp] theorem isPlainOne_side (isFirst : Bool) (relation partner : Relation) :
    (side isFirst relation partner).isPlainOne = relation.isPlainOne := by
  obtain ⟨_, _, hside⟩ := side_eq_asSide isFirst relation partner
  rw [hside, asSide, isPlainOne, isPlainOne]

theorem Linked.getElem?_pairAll {place other : Nat} {relation partner : Relation}
    (hlinked : Linked relations place other) (hat : relations[place]? = some relation)
    (hother : relations[other]? = some partner) :
    (pairAll relations)[place]? = some (side (place < other) relation partner) := by
  have hmatched := linked_iff_matched.mp hlinked
  rcases Nat.lt_or_gt_of_ne hmatched.ne with hlt | hgt
  · rw [(getElem?_pairAll_of_matched hat hother hmatched hlt).1, link_eq_side,
      decide_eq_true hlt]
  · rw [(getElem?_pairAll_of_matched hother hat hmatched.symm hgt).2, link_eq_side,
      decide_eq_false (Nat.lt_asymm hgt)]

/-- A relation of the result stayed alone as it was, or it is one side of a link. -/
theorem getElem?_pairAll_cases {place : Nat} {relation : Relation}
    (hresult : (pairAll relations)[place]? = some relation) :
    ∃ before, relations[place]? = some before ∧
      ((∀ other, ¬ Linked relations place other) ∧ relation = before ∨
        ∃ other partner, Linked relations place other ∧ relations[other]? = some partner ∧
          relation = side (place < other) before partner) := by
  have hplace : place < relations.length := by
    rw [← length_pairAll]
    exact (List.getElem?_eq_some_iff.mp hresult).1
  have hbefore := List.getElem?_eq_getElem hplace
  refine ⟨relations[place], hbefore, ?_⟩
  by_cases hlinked : ∃ other, Linked relations place other
  · obtain ⟨other, hlinked⟩ := hlinked
    obtain ⟨_, partner, _, hpartner, _⟩ := (linked_iff_matched.mp hlinked).exists_getElem?
    rw [hlinked.getElem?_pairAll hbefore hpartner] at hresult
    exact Or.inr ⟨other, partner, hlinked, hpartner, (Option.some.inj hresult).symm⟩
  · rw [not_exists] at hlinked
    rw [getElem?_pairAll_of_unmatched fun other => linked_iff_matched.not.mp (hlinked other),
      hbefore] at hresult
    exact Or.inl ⟨hlinked, (Option.some.inj hresult).symm⟩

/-- No two relations that stay alone lead back from each other. -/
theorem isReverseOf_of_unlinked {first second : Nat} {left right : Relation}
    (hleft : relations[first]? = some left) (hright : relations[second]? = some right)
    (hne : first ≠ second) (hfirst : ∀ other, ¬ Linked relations first other)
    (hsecond : ∀ other, ¬ Linked relations second other) : right.isReverseOf left = false := by
  obtain ⟨slots, _, _, hexhausted, hprogress⟩ := exists_pairAll_eq relations
  simp only [linked_iff_matched] at hfirst hsecond
  have hslot := hprogress.waiting hleft fun other hmatched => absurd hmatched (hfirst other)
  have hslot' := hprogress.waiting hright fun other hmatched => absurd hmatched (hsecond other)
  have hbound := (List.getElem?_eq_some_iff.mp hleft).1
  simpa [Slot.isOpenTo] using hexhausted first left second _ hbound hslot hne.symm hslot'

/-- What it means that relations are paired by rank. -/
structure PairedByRank (relations result : List Relation) : Prop where
  /-- Between two entities, relations of equal ranks in opposite directions are linked. -/
  across : ∀ {source target : String}, source ≠ target → ∀ {first second : Nat},
    leadsAt relations source target first = true →
    (Linked relations first second ↔ ∃ rank, IsNth relations source target rank first ∧
      IsNth relations target source rank second)
  /-- Within an entity, each relation of odd rank is linked with the one of the next rank. -/
  within : ∀ {entity : String} {first second : Nat},
    leadsAt relations entity entity first = true →
    (Linked relations first second ↔ ∃ half,
      IsNth relations entity entity (2 * half - 1) first ∧
        IsNth relations entity entity (2 * half) second ∨
      IsNth relations entity entity (2 * half) first ∧
        IsNth relations entity entity (2 * half - 1) second)
  linked_unique : ∀ {first second third : Nat}, Linked relations first second →
    Linked relations first third → second = third
  not_linked_self : ∀ place, ¬ Linked relations place place
  /-- Both sides of a link face each other; only what linking settles differs from before. -/
  linked : ∀ {first second : Nat} {left right : Relation}, Linked relations first second →
    relations[first]? = some left → relations[second]? = some right →
    ∃ cardinality isOwner cardinality' isOwner',
      result[first]? = some (left.asSide right.localName cardinality isOwner) ∧
      result[second]? = some (right.asSide left.localName cardinality' isOwner')
  alone : ∀ {place : Nat}, (∀ other, ¬ Linked relations place other) →
    result[place]? = relations[place]?
  alone_not_reverse : ∀ {first second : Nat} {left right : Relation}, first ≠ second →
    relations[first]? = some left → relations[second]? = some right →
    (∀ other, ¬ Linked relations first other) → (∀ other, ¬ Linked relations second other) →
    right.isReverseOf left = false
  length_eq : result.length = relations.length
  /-- What is taken in a turn stands later in the list, where the list can be cut. -/
  taken_later : ∀ {place other : Nat}, Takes relations place other →
    place < other ∧ other < relations.length
  /-- No turn fails, and the result is what the last one leaves. -/
  turns : ∃ slots, afterTurns? relations relations.length = some slots ∧
    result = slots.map (·.relation)

/-- The turns of the pairing match relations by rank. -/
theorem pairAll_pairedByRank (relations : List Relation) :
    PairedByRank relations (pairAll relations) where
  across := by
    intro source target hne first second hleads
    rw [linked_iff_matched]
    constructor
    · rintro ⟨_, _, rank, hfirst, hsecond⟩
      obtain ⟨_, hnth⟩ := exists_isNth hleads
      obtain ⟨rfl, rfl, _⟩ := hnth.eq_of_same_place hfirst
      exact ⟨rank, hfirst, by simpa [opposite, hne] using hsecond⟩
    · rintro ⟨rank, hfirst, hsecond⟩
      exact ⟨source, target, rank, hfirst, by simpa [opposite, hne] using hsecond⟩
  within := by
    intro entity first second hleads
    rw [linked_iff_matched]
    constructor
    · rintro ⟨_, _, rank, hfirst, hsecond⟩
      obtain ⟨_, hnth⟩ := exists_isNth hleads
      obtain ⟨rfl, rfl, _⟩ := hnth.eq_of_same_place hfirst
      have hpos := hfirst.rank_pos
      simp only [opposite, mate, if_true] at hsecond
      -- The first rank is paired with the second one, the third with the fourth, and so on.
      refine ⟨(rank + 1) / 2, ?_⟩
      split at hsecond
      next hodd =>
        rw [show 2 * ((rank + 1) / 2) = rank + 1 by omega]
        exact Or.inl ⟨hfirst, hsecond⟩
      next heven =>
        rw [show 2 * ((rank + 1) / 2) = rank by omega]
        exact Or.inr ⟨hfirst, hsecond⟩
    · rintro ⟨half, ⟨hfirst, hsecond⟩ | ⟨hfirst, hsecond⟩⟩
      · have hpos := hfirst.rank_pos
        have hmate : opposite entity entity (2 * half - 1) = 2 * half := by
          grind [opposite, mate]
        exact ⟨entity, entity, _, hfirst, by rwa [hmate]⟩
      · have hmate : opposite entity entity (2 * half) = 2 * half - 1 := by
          grind [opposite, mate]
        exact ⟨entity, entity, _, hfirst, by rwa [hmate]⟩
  linked_unique hsecond hthird := hsecond.unique hthird
  not_linked_self place hlinked := hlinked.ne rfl
  linked := by
    intro first second left right hlinked hleft hright
    obtain ⟨cardinality, isOwner, hside⟩ := side_eq_asSide (first < second) left right
    obtain ⟨cardinality', isOwner', hside'⟩ := side_eq_asSide (second < first) right left
    refine ⟨cardinality, isOwner, cardinality', isOwner', ?_, ?_⟩
    · rw [hlinked.getElem?_pairAll hleft hright, hside]
    · rw [hlinked.symm.getElem?_pairAll hright hleft, hside']
  alone := by
    intro place halone
    simp only [linked_iff_matched] at halone
    exact getElem?_pairAll_of_unmatched halone
  alone_not_reverse hne hleft hright hfirst hsecond :=
    isReverseOf_of_unlinked hleft hright hne hfirst hsecond
  length_eq := length_pairAll relations
  taken_later := by
    intro place other htakes
    obtain ⟨hmatched, hlt⟩ := takes_iff.mp htakes
    obtain ⟨_, _, _, hright, _⟩ := hmatched.exists_getElem?
    exact ⟨hlt, (List.getElem?_eq_some_iff.mp hright).1⟩
  turns := by
    obtain ⟨slots, hslots, hresult, _⟩ := exists_pairAll_eq relations
    exact ⟨slots, hslots, hresult⟩

end EntityModel.Relation
