import EntityModel.Relation.Basic

/-!
# Pairing relations

Relations are paired with those that lead back. They take turns in their order; one that is not
paired yet takes the first other one that leads back and is not paired either, wherever it stands.
Labels are not looked at. Both sides of a pair then agree on how many rows stand on each, and on
who holds the key. A relation that finds no other side in its turn is taken by no later one
(`Exhausted`), so the side that is found always stands later and no turn fails.
-/

namespace EntityModel.Relation

/-- A relation as one side of a pair: the name of the other side, the cardinality and the ownership
are settled. -/
def asSide (relation : Relation) (inverse : String) (cardinality : Cardinality) (isOwner : Bool) :
    Relation :=
  { relation with inverseSide := some inverse, cardinality := cardinality, isOwner := isOwner }

/-- A relation as one side of a pair that is neither of two declarations of many rows nor of two
declarations of one row. If it was taken for one-to-one, many rows may point at the same one. -/
def asRefinedSide (relation : Relation) (inverse : String) : Relation :=
  if relation.cardinality = .oneToOne then
    relation.asSide inverse .manyToOne relation.joinColumn.isSome
  else relation.asSide inverse relation.cardinality relation.isOwner

/-- Two relations as the two sides of a pair. Of two declarations of many rows the first owns the
table between them; of two declarations of one row the first that knows its column owns it. -/
def link (first second : Relation) : Relation × Relation :=
  if first.builder = .many && second.builder = .many then
    (first.asSide second.localName .manyToMany true,
      second.asSide first.localName .manyToMany false)
  else if first.isPlainOne && second.isPlainOne then
    (first.asSide second.localName .oneToOne first.joinColumn.isSome,
      second.asSide first.localName .oneToOne
        (!first.joinColumn.isSome && second.joinColumn.isSome))
  else (first.asRefinedSide second.localName, second.asRefinedSide first.localName)

/-- A relation on its way through the pairing. -/
structure Slot where
  relation : Relation
  paired : Bool

/-- Whether a slot may become the other side of a relation. -/
def Slot.isOpenTo (slot : Slot) (relation : Relation) : Bool :=
  !slot.paired && slot.relation.isReverseOf relation

/-- The place of the other side that the relation at a place takes in its turn: the first place
but its own, from the start on, whose slot is open to it. -/
def partner? (slots : List Slot) (place : Nat) : Option Nat :=
  match slots[place]? with
  | some ⟨relation, false⟩ =>
    slots.zipIdx.findIdx? fun (slot, other) => other ≠ place && slot.isOpenTo relation
  | _ => none

/-- The slots at two places. The list is cut before the second place, so that place has to be in
the list and the first one before it. -/
def sides? (slots : List Slot) (first second : Nat) : Option (Slot × Slot) :=
  let (head, tail) := slots.splitAt second
  match head[first]?, tail.head? with
  | some left, some right => some (left, right)
  | _, _ => none

/-- The slots after the turn of the relation at a place. -/
def turn? (slots : List Slot) (place : Nat) : Option (List Slot) :=
  match partner? slots place with
  | none => some slots
  | some other =>
    (sides? slots place other).map fun (left, right) =>
      let (first, second) := link left.relation right.relation
      (slots.set place ⟨first, true⟩).set other ⟨second, true⟩

/-- The slots of relations after the first turns, as many as given. -/
def afterTurns? (relations : List Relation) : Nat → Option (List Slot)
  | 0 => some (relations.map (⟨·, false⟩))
  | count + 1 => (afterTurns? relations count).bind (turn? · count)

theorem isReverseOf_comm (first second : Relation) :
    first.isReverseOf second = second.isReverseOf first := by
  simp only [isReverseOf, Bool.and_comm, eq_comm]

theorem partner?_eq_some {slots : List Slot} {place other : Nat}
    (hpartner : partner? slots place = some other) :
    ∃ relation found, slots[place]? = some ⟨relation, false⟩ ∧ slots[other]? = some found ∧
      other ≠ place ∧ found.isOpenTo relation = true ∧
      ∀ earlier slot, earlier < other → earlier ≠ place → slots[earlier]? = some slot →
        slot.isOpenTo relation = false := by
  unfold partner? at hpartner
  split at hpartner
  next relation hslot =>
    obtain ⟨hlt, hfound, hearlier⟩ := List.findIdx?_eq_some_iff_getElem.mp hpartner
    have hother : other < slots.length := by simpa using hlt
    simp only [List.getElem_zipIdx, Nat.zero_add, Bool.and_eq_true, decide_eq_true_eq] at hfound
    refine ⟨relation, slots[other], hslot, List.getElem?_eq_getElem hother, hfound.1, hfound.2, ?_⟩
    intro earlier slot hbefore hne hat
    have hnot := hearlier earlier hbefore
    obtain ⟨_, rfl⟩ := List.getElem?_eq_some_iff.mp hat
    simpa [hne] using hnot
  next => cases hpartner

theorem isOpenTo_of_partner?_eq_none {slots : List Slot} {place : Nat} {relation : Relation}
    (hslot : slots[place]? = some ⟨relation, false⟩) (hpartner : partner? slots place = none)
    {other : Nat} {found : Slot} (hne : other ≠ place) (hfound : slots[other]? = some found) :
    found.isOpenTo relation = false := by
  unfold partner? at hpartner
  rw [hslot] at hpartner
  have hnone := List.findIdx?_eq_none_iff.mp hpartner (found, other)
    (List.mk_mem_zipIdx_iff_getElem?.mpr hfound)
  simpa [hne] using hnone

theorem sides?_eq_some {slots : List Slot} {first second : Nat} {left right : Slot}
    (hlt : first < second) (hleft : slots[first]? = some left)
    (hright : slots[second]? = some right) : sides? slots first second = some (left, right) := by
  simp [sides?, hlt, hleft, hright]

/-- Whether each slot before a place is paired or has nothing left that is open to it. -/
def Exhausted (slots : List Slot) (count : Nat) : Prop :=
  ∀ place relation other found, place < count → slots[place]? = some ⟨relation, false⟩ →
    other ≠ place → slots[other]? = some found → found.isOpenTo relation = false

namespace Exhausted

/-- What is found in a turn stands later: an earlier slot would have found this one in its own. -/
theorem lt_of_partner? {slots : List Slot} {place other : Nat} (hslots : Exhausted slots place)
    (hpartner : partner? slots place = some other) : place < other := by
  obtain ⟨relation, ⟨back, paired⟩, hslot, hfound, hne, hopen, _⟩ := partner?_eq_some hpartner
  simp only [Slot.isOpenTo, Bool.and_eq_true, Bool.not_eq_true'] at hopen
  obtain ⟨rfl, hreverse⟩ := hopen
  have hnot : ¬ other < place := by
    intro hlt
    have hclosed := hslots other back place _ hlt hfound hne.symm hslot
    rw [Slot.isOpenTo, isReverseOf_comm, hreverse] at hclosed
    cases hclosed
  omega

/-- A turn either leaves the slots as they are, as nothing is open to the relation, or links two
open slots, the one in turn with a later one. -/
theorem turn?_cases {slots : List Slot} {place : Nat} (hslots : Exhausted slots place) :
    (partner? slots place = none ∧ turn? slots place = some slots) ∨
    ∃ other left right, partner? slots place = some other ∧ place < other ∧
      slots[place]? = some ⟨left, false⟩ ∧ slots[other]? = some ⟨right, false⟩ ∧
      right.isReverseOf left = true ∧
      turn? slots place = some ((slots.set place ⟨(link left right).1, true⟩).set other
        ⟨(link left right).2, true⟩) := by
  cases hpartner : partner? slots place with
  | none => exact Or.inl ⟨rfl, by simp [turn?, hpartner]⟩
  | some other =>
      right
      have hlt := hslots.lt_of_partner? hpartner
      obtain ⟨left, ⟨right, paired⟩, hleft, hright, _, hopen, _⟩ := partner?_eq_some hpartner
      simp only [Slot.isOpenTo, Bool.and_eq_true, Bool.not_eq_true'] at hopen
      obtain ⟨rfl, hreverse⟩ := hopen
      refine ⟨other, left, right, rfl, hlt, hleft, hright, hreverse, ?_⟩
      simp [turn?, hpartner, sides?_eq_some hlt hleft hright]

theorem step {slots next : List Slot} {place : Nat} (hslots : Exhausted slots place)
    (hturn : turn? slots place = some next) : Exhausted next (place + 1) := by
  intro index relation other found hindex hslot hne hfound
  rcases hslots.turn?_cases with ⟨hpartner, hsame⟩ | ⟨second, left, right, _, _, _, _, _, hset⟩
  · obtain rfl : slots = next := Option.some.inj (hsame.symm.trans hturn)
    by_cases heq : index = place
    · subst index
      exact isOpenTo_of_partner?_eq_none hslot hpartner hne hfound
    · exact hslots index relation other found (by omega) hslot hne hfound
  · obtain rfl := Option.some.inj (hset.symm.trans hturn)
    -- A slot that is still open was open before the turn, and neither of the two linked ones is.
    have hopen : ∀ {spot : Nat} {slot : Slot}, slot.paired = false →
        ((slots.set place ⟨(link left right).1, true⟩).set second
          ⟨(link left right).2, true⟩)[spot]? = some slot →
        spot ≠ place ∧ slots[spot]? = some slot := by
      intro spot slot hpaired hat
      grind
    obtain ⟨hplace, hbefore⟩ := hopen rfl hslot
    cases hpaired : found.paired with
    | true => simp [Slot.isOpenTo, hpaired]
    | false =>
        obtain ⟨_, hother⟩ := hopen hpaired hfound
        exact hslots index relation other found (by omega) hbefore hne hother

end Exhausted

/-- No turn fails. -/
theorem exists_afterTurns? (relations : List Relation) (count : Nat) :
    ∃ slots, afterTurns? relations count = some slots ∧ Exhausted slots count := by
  induction count with
  | zero => exact ⟨_, rfl, fun _ _ _ _ hlt => absurd hlt (Nat.not_lt_zero _)⟩
  | succ count ih =>
      obtain ⟨slots, hslots, hexhausted⟩ := ih
      rcases hexhausted.turn?_cases with ⟨_, hturn⟩ | ⟨_, _, _, _, _, _, _, _, hturn⟩ <;>
        exact ⟨_, by simp [afterTurns?, hslots, hturn], hexhausted.step hturn⟩

/-- Pairs relations, each with at most one other. Their order stays, and those that are not paired
stay as they are. -/
def pairAll (relations : List Relation) : List Relation :=
  ((afterTurns? relations relations.length).get (by
    obtain ⟨_, hslots, _⟩ := exists_afterTurns? relations relations.length
    simp [hslots])).map (·.relation)

end EntityModel.Relation
