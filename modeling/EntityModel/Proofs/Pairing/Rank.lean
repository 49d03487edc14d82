import EntityModel.Relation.Pairing
import Mathlib.Data.Nat.Nth

/-!
# Ranks of relations

The relations that lead from one entity to another have ranks, counted from one in the order of
the list. Two relations match if they have the same rank in opposite directions. The relations of
an entity to itself have a single direction: there the first matches the second, the third the
fourth, and so on. Matching is symmetric and unique, and it keeps the order: the mates of two
relations of one direction stand in the order of the relations themselves (`Matched.ordered`).
-/

namespace EntityModel.Relation

variable {relations : List Relation} {source target : String}

/-- Whether the relation at a place leads from one entity to another. -/
def leadsAt (relations : List Relation) (source target : String) (place : Nat) : Bool :=
  relations[place]?.any fun relation =>
    relation.fromEntity = source && relation.toEntity = target

/-- Whether the relation at a place has a rank among those from one entity to another. -/
def IsNth (relations : List Relation) (source target : String) (rank place : Nat) : Prop :=
  leadsAt relations source target place = true ∧
    Nat.count (leadsAt relations source target · = true) place + 1 = rank

theorem leadsAt_iff {place : Nat} : leadsAt relations source target place = true ↔
    ∃ relation, relations[place]? = some relation ∧
      relation.fromEntity = source ∧ relation.toEntity = target := by
  simp [leadsAt, Option.any_eq_true]

theorem leadsAt_of_getElem? {place : Nat} {relation : Relation}
    (hat : relations[place]? = some relation) :
    leadsAt relations relation.fromEntity relation.toEntity place = true :=
  leadsAt_iff.mpr ⟨relation, hat, rfl, rfl⟩

theorem exists_isNth {place : Nat} (hleads : leadsAt relations source target place = true) :
    ∃ rank, IsNth relations source target rank place :=
  ⟨_, hleads, rfl⟩

namespace IsNth

theorem rank_pos {rank place : Nat} (hnth : IsNth relations source target rank place) :
    0 < rank := by
  obtain ⟨_, rfl⟩ := hnth
  exact Nat.succ_pos _

theorem unique {rank place other : Nat} (hplace : IsNth relations source target rank place)
    (hother : IsNth relations source target rank other) : place = other :=
  Nat.count_injective hplace.1 hother.1 (Nat.succ.inj (hplace.2.trans hother.2.symm))

/-- A place has one direction and one rank in it. -/
theorem eq_of_same_place {source' target' : String} {rank rank' place : Nat}
    (hnth : IsNth relations source target rank place)
    (hnth' : IsNth relations source' target' rank' place) :
    source = source' ∧ target = target' ∧ rank = rank' := by
  obtain ⟨relation, hat, rfl, rfl⟩ := leadsAt_iff.mp hnth.1
  obtain ⟨other, hother, rfl, rfl⟩ := leadsAt_iff.mp hnth'.1
  obtain rfl := Option.some.inj (hat.symm.trans hother)
  exact ⟨rfl, rfl, hnth.2.symm.trans hnth'.2⟩

theorem lt_iff {rank rank' place place' : Nat} (hnth : IsNth relations source target rank place)
    (hnth' : IsNth relations source target rank' place') : place < place' ↔ rank < rank' := by
  obtain ⟨hleads, rfl⟩ := hnth
  obtain ⟨hleads', rfl⟩ := hnth'
  refine ⟨fun hlt => Nat.succ_lt_succ (Nat.count_strict_mono hleads hlt), fun hlt => ?_⟩
  exact Nat.lt_of_count_lt_count (Nat.lt_of_succ_lt_succ hlt)

/-- Every smaller rank is taken by an earlier relation of the same direction. -/
theorem exists_of_le {rank smaller place : Nat} (hnth : IsNth relations source target rank place)
    (hpos : 0 < smaller) (hle : smaller ≤ rank) :
    ∃ other ≤ place, IsNth relations source target smaller other := by
  obtain ⟨hleads, rfl⟩ := hnth
  have hcount : smaller - 1 <
      Nat.count (leadsAt relations source target · = true) (place + 1) := by
    rw [Nat.count_succ_eq_succ_count_iff.mpr hleads]
    omega
  have hcard := fun hfinite => hcount.trans_le (Nat.count_le_card hfinite (place + 1))
  refine ⟨Nat.nth (leadsAt relations source target · = true) (smaller - 1),
    Nat.le_of_lt_succ (Nat.nth_lt_of_lt_count hcount), Nat.nth_mem _ hcard, ?_⟩
  rw [Nat.count_nth hcard]
  omega

end IsNth

/-- The rank of the other relation among two that follow each other, the first with an odd rank. -/
def mate (rank : Nat) : Nat := if rank % 2 = 1 then rank + 1 else rank - 1

/-- The rank, in the opposite direction, that matches a rank. -/
def opposite (source target : String) (rank : Nat) : Nat :=
  if source = target then mate rank else rank

theorem opposite_opposite {rank : Nat} (hpos : 0 < rank) :
    opposite target source (opposite source target rank) = rank := by
  unfold opposite mate
  by_cases hself : source = target
  · subst hself
    grind
  · simp [hself, Ne.symm hself]

/-- Whether the relations at two places have matching ranks in opposite directions. -/
def Matched (relations : List Relation) (first second : Nat) : Prop :=
  ∃ source target rank, IsNth relations source target rank first ∧
    IsNth relations target source (opposite source target rank) second

namespace Matched

variable {first second third fourth : Nat}

theorem symm (hmatched : Matched relations first second) : Matched relations second first := by
  obtain ⟨source, target, rank, hfirst, hsecond⟩ := hmatched
  exact ⟨target, source, _, hsecond, by rwa [opposite_opposite hfirst.rank_pos]⟩

theorem unique (hsecond : Matched relations first second) (hthird : Matched relations first third) :
    second = third := by
  obtain ⟨source, target, rank, hfirst, hsecond⟩ := hsecond
  obtain ⟨_, _, _, hfirst', hthird⟩ := hthird
  obtain ⟨rfl, rfl, rfl⟩ := hfirst.eq_of_same_place hfirst'
  exact hsecond.unique hthird

theorem ne (hmatched : Matched relations first second) : first ≠ second := by
  rintro rfl
  obtain ⟨source, target, rank, hfirst, hsecond⟩ := hmatched
  obtain ⟨rfl, _, hrank⟩ := hfirst.eq_of_same_place hsecond
  have hpos := hfirst.rank_pos
  simp only [opposite, mate, if_true] at hrank
  split at hrank <;> omega

/-- Two pairs of one direction do not cross: if the second pair starts after the first, it also
ends after it, unless it is the first pair the other way round. -/
theorem ordered (hpair : Matched relations first second) (hother : Matched relations third fourth)
    (hleads : leadsAt relations source target first = true)
    (hleads' : leadsAt relations source target third = true)
    (hlt : first < third) (hgt : fourth < second) : third = second ∧ fourth = first := by
  obtain ⟨_, _, _, hfirst, hsecond⟩ := hpair
  obtain ⟨_, _, _, hthird, hfourth⟩ := hother
  obtain ⟨rank, hnth⟩ := exists_isNth hleads
  obtain ⟨rank', hnth'⟩ := exists_isNth hleads'
  obtain ⟨rfl, rfl, rfl⟩ := hnth.eq_of_same_place hfirst
  obtain ⟨rfl, rfl, rfl⟩ := hnth'.eq_of_same_place hthird
  have hranks := (hfirst.lt_iff hthird).mp hlt
  have hranks' := (hfourth.lt_iff hsecond).mp hgt
  by_cases hself : source = target
  · subst hself
    simp only [opposite, if_true] at hsecond hfourth hranks'
    have hmates : rank' = mate rank ∧ rank = mate rank' := by
      unfold mate at hranks' ⊢
      grind
    exact ⟨(hmates.1 ▸ hthird).unique hsecond, (hmates.2 ▸ hfourth).unique (hmates.2 ▸ hfirst)⟩
  · simp only [opposite, hself, if_false] at hranks'
    omega

end Matched

/-- A relation that no earlier one matches has its mate up to any later relation that leads back
and that no earlier one matches either. -/
theorem exists_matched {place other : Nat} (hlt : place < other)
    (hplace : leadsAt relations source target place = true)
    (hother : leadsAt relations target source other = true)
    (hfree : ∀ earlier < place, ¬ Matched relations place earlier)
    (hfree' : ∀ earlier < place, ¬ Matched relations other earlier) :
    ∃ found, place < found ∧ found ≤ other ∧ Matched relations place found := by
  obtain ⟨rank, hnth⟩ := exists_isNth hplace
  obtain ⟨rank', hnth'⟩ := exists_isNth hother
  have hpos := hnth.rank_pos
  have hpos' := hnth'.rank_pos
  suffices hle : opposite source target rank ≤ rank' ∧ 0 < opposite source target rank by
    obtain ⟨found, hfound, hnthFound⟩ := hnth'.exists_of_le hle.2 hle.1
    have hmatched : Matched relations place found := ⟨source, target, rank, hnth, hnthFound⟩
    have hnot : ¬ found < place := fun hearlier => hfree found hearlier hmatched
    have hne := hmatched.ne
    exact ⟨found, by omega, hfound, hmatched⟩
  by_cases hself : source = target
  · subst hself
    -- The rank is odd: the mate of an even rank stands before it.
    have hodd : rank % 2 = 1 := by
      by_contra heven
      obtain ⟨earlier, _, hearlier⟩ : ∃ earlier ≤ place,
          IsNth relations source source (rank - 1) earlier :=
        hnth.exists_of_le (by omega) (by omega)
      have hbefore : earlier < place := (hearlier.lt_iff hnth).mpr (by omega)
      refine hfree earlier hbefore ⟨source, source, rank, hnth, ?_⟩
      simpa [opposite, mate, heven] using hearlier
    have hranks := (hnth.lt_iff hnth').mp hlt
    simp only [opposite, mate, hodd, if_true]
    omega
  · simp only [opposite, hself, if_false]
    refine ⟨?_, hpos⟩
    by_contra hsmaller
    obtain ⟨earlier, _, hearlier⟩ := hnth.exists_of_le hpos' (by omega)
    have hbefore : earlier < place := (hearlier.lt_iff hnth).mpr (by omega)
    refine hfree' earlier hbefore ⟨target, source, rank', hnth', ?_⟩
    simpa [opposite, Ne.symm hself] using hearlier

end EntityModel.Relation
