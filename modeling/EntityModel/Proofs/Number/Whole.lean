import EntityModel.Proofs.Number.Rounding
import Mathlib.Tactic.Ring

/-!
# Whole numbers

Every natural number up to `2 ^ 53` is a double, so nothing is lost when it is rounded to one
(`Number.toNat?_ofNat`).
-/

namespace EntityModel

namespace Magnitude

/-- A significand of all 53 bits and an exponent make a magnitude. -/
theorem exists_scaled_eq (significand exponent : Nat) (hlow : 2 ^ 52 ≤ significand)
    (hhigh : significand < 2 ^ 53) (hexponent : exponent ≤ 2045) :
    ∃ magnitude : Magnitude, magnitude.scaled = significand * Nat.pow 2 exponent := by
  have hrank : exponent * Nat.pow 2 52 + significand < 2047 * Nat.pow 2 52 := by
    simp only [Nat.pow_eq]
    omega
  let magnitude : Magnitude := ⟨exponent * Nat.pow 2 52 + significand, hrank⟩
  have hsignificand : magnitude.significand = significand := by
    simp only [magnitude, Magnitude.significand, Nat.pow_eq]
    split <;> omega
  have hpower : magnitude.exponent = exponent := by
    simp only [magnitude, Magnitude.exponent, Nat.pow_eq]
    split <;> omega
  exact ⟨magnitude, by rw [scaled, hsignificand, hpower]⟩

/-- A natural number of at most 53 bits is a magnitude, and so is the next one. -/
theorem exists_scaled_eq_mul {value : Nat} (hvalue : value ≤ 2 ^ 53) :
    ∃ magnitude : Magnitude, magnitude.scaled = value * Nat.pow 2 1074 := by
  rcases Nat.eq_zero_or_pos value with rfl | hpos
  · have hzero : zero.scaled = 0 := by decide
    exact ⟨zero, hzero.trans (Nat.zero_mul _).symm⟩
  obtain ⟨hlow, hhigh⟩ := (Nat.log2_eq_iff hpos.ne').mp rfl
  by_cases hlarge : value = 2 ^ 53
  · -- This number has 54 bits, of which the last is zero.
    obtain ⟨magnitude, hscaled⟩ := exists_scaled_eq (2 ^ 52) (1074 + 1) (le_refl _) (by decide)
      (by decide)
    refine ⟨magnitude, ?_⟩
    rw [hscaled, hlarge, Nat.pow_eq, Nat.pow_eq, Nat.pow_succ 2 1074, Nat.pow_succ 2 52,
      Nat.mul_assoc, Nat.mul_comm 2]
  · -- The number is moved up until its highest bit is the 53rd one.
    have hbits : value.log2 ≤ 52 := Nat.lt_succ_iff.mp ((Nat.log2_lt hpos.ne').mpr (by omega))
    generalize value.log2 = bits at hlow hhigh hbits
    have hmoved : 2 ^ (52 - bits) * 2 ^ bits = 2 ^ 52 := by
      rw [← Nat.pow_add, Nat.sub_add_cancel hbits]
    obtain ⟨magnitude, hscaled⟩ := exists_scaled_eq (value * 2 ^ (52 - bits)) (1022 + bits)
      (by rw [← hmoved, Nat.mul_comm]; exact Nat.mul_le_mul_right _ hlow)
      (by
        rw [Nat.pow_succ, ← hmoved, Nat.mul_assoc, ← Nat.pow_succ, Nat.mul_comm]
        exact Nat.mul_lt_mul_of_pos_left hhigh (Nat.two_pow_pos _))
      (by omega)
    refine ⟨magnitude, ?_⟩
    have hsum : 52 - bits + (1022 + bits) = 1074 := by omega
    rw [hscaled, Nat.pow_eq, Nat.pow_eq, Nat.mul_assoc, ← Nat.pow_add, hsum]

end Magnitude

/-- Natural numbers up to `2 ^ 53` are kept as they are. -/
theorem Number.toNat?_ofNat {value : Nat} (hvalue : value ≤ 2 ^ 53) :
    (ofNat value).toNat? = some value := by
  obtain ⟨magnitude, hscaled⟩ := Magnitude.exists_scaled_eq_mul hvalue
  have hrank : nearestRank value 1 = magnitude.rank := by
    have hmul : nearestRank (value * Nat.pow 2 1074) (1 * Nat.pow 2 1074) = nearestRank value 1 :=
      nearestRank_mul_right (Magnitude.pow_pos 1074)
    rw [← hmul, Nat.one_mul, ← hscaled, Magnitude.nearestRank_scaled]
  have hfinite : ofNat value = .finite false magnitude := ofRatio_eq_finite_iff.mpr hrank
  have hunit := Magnitude.pow_pos 1074
  rw [hfinite, toNat?, hscaled]
  generalize Nat.pow 2 1074 = unit at hunit
  rw [Nat.mul_mod_left, Nat.mul_div_cancel _ hunit]
  rfl

end EntityModel
