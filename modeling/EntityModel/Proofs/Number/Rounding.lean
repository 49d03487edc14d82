import Mathlib.Algebra.Group.Nat.Defs
import EntityModel.Number.Decimal

/-!
# Rounding depends on the value alone

A ratio rounds to the same double however it is written, and a ratio that is a double rounds to
itself. So a decimal keeps its double when zeros are moved between its digits and its exponent, and
the shortest decimal of a magnitude reads back as that magnitude.
-/

namespace EntityModel

/-! ## Ratios -/

variable {numerator denominator factor : Nat}

theorem roundHalfEven_mul_right (hfactor : 0 < factor) :
    roundHalfEven (numerator * factor) (denominator * factor) =
      roundHalfEven numerator denominator := by
  have htwice : 2 * (numerator % denominator * factor) = 2 * (numerator % denominator) * factor :=
    (Nat.mul_assoc ..).symm
  simp only [roundHalfEven, Nat.mul_div_mul_right _ _ hfactor, Nat.mul_mod_mul_right, htwice,
    Nat.mul_lt_mul_right hfactor]

theorem roundHalfEven_of_dvd (hpos : 0 < denominator) (hdvd : denominator ∣ numerator) :
    roundHalfEven numerator denominator = numerator / denominator := by
  have hlt : 2 * (numerator % denominator) < denominator := by
    rw [Nat.mod_eq_zero_of_dvd hdvd]
    exact hpos
  simp only [roundHalfEven, if_pos hlt]

theorem nearestRank_mul_right (hfactor : 0 < factor) :
    nearestRank (numerator * factor) (denominator * factor) =
      nearestRank numerator denominator := by
  simp only [nearestRank, Nat.mul_right_comm _ factor, Nat.mul_div_mul_right _ _ hfactor,
    roundHalfEven_mul_right hfactor]

/-- Equal ratios have the same nearest magnitude. -/
theorem nearestRank_eq_of_mul_eq {otherNumerator otherDenominator : Nat} (hpos : 0 < denominator)
    (hother : 0 < otherDenominator)
    (hcross : numerator * otherDenominator = otherNumerator * denominator) :
    nearestRank numerator denominator = nearestRank otherNumerator otherDenominator := by
  rw [← nearestRank_mul_right hother, hcross, Nat.mul_comm denominator,
    nearestRank_mul_right hpos]

theorem Number.ofRatio_eq_of_mul_eq {negative : Bool} {otherNumerator otherDenominator : Nat}
    (hpos : 0 < denominator) (hother : 0 < otherDenominator)
    (hcross : numerator * otherDenominator = otherNumerator * denominator) :
    ofRatio negative numerator denominator =
      ofRatio negative otherNumerator otherDenominator := by
  simp only [ofRatio, nearestRank_eq_of_mul_eq hpos hother hcross]

/-- A ratio is a magnitude of its own sign exactly if that is the nearest one. -/
theorem Number.ofRatio_eq_finite_iff {negative : Bool} {magnitude : Magnitude} :
    ofRatio negative numerator denominator = .finite negative magnitude ↔
      nearestRank numerator denominator = magnitude.rank := by
  unfold ofRatio
  generalize nearestRank numerator denominator = rank
  obtain ⟨kept, hkept⟩ := magnitude
  dsimp only
  split
  next => simp only [finite.injEq, true_and, Magnitude.mk.injEq]
  next hlarge =>
    refine ⟨nofun, fun heq => absurd ?_ hlarge⟩
    rw [heq]
    exact hkept

/-! ## Magnitudes -/

namespace Magnitude

variable {magnitude : Magnitude}

/-- A magnitude with an exponent has a significand of all 53 bits. -/
theorem le_significand (hlarge : ¬ magnitude.rank < 2 ^ 53) : 2 ^ 52 ≤ magnitude.significand := by
  rw [significand, Nat.pow_eq, if_neg hlarge]
  exact Nat.le_add_left _ _

theorem exponent_eq_zero (hsmall : magnitude.rank < 2 ^ 53) : magnitude.exponent = 0 := by
  rw [exponent, Nat.pow_eq, if_pos hsmall]

theorem exponent_le : magnitude.exponent ≤ 2045 := by
  have hrank := magnitude.rank_lt
  unfold exponent
  simp only [Nat.pow_eq] at hrank ⊢
  split <;> omega

/-- The rank counts the magnitudes with smaller exponents, then those up to the significand. -/
theorem exponent_mul_add_significand :
    magnitude.exponent * Nat.pow 2 52 + magnitude.significand = magnitude.rank := by
  unfold exponent significand
  simp only [Nat.pow_eq]
  split <;> omega

theorem log2_scaled : Nat.log2 magnitude.scaled - 52 = magnitude.exponent := by
  have hlt : magnitude.significand < 2 ^ 53 := magnitude.significand_lt
  rw [scaled, Nat.pow_eq]
  by_cases hsmall : magnitude.rank < 2 ^ 53
  · rw [exponent_eq_zero hsmall, Nat.pow_zero, Nat.mul_one]
    by_cases hzero : magnitude.significand = 0
    · rw [hzero]
      rfl
    · have hlog := (Nat.log2_lt hzero).mpr hlt
      omega
  · have hle := le_significand hsmall
    have hlog : Nat.log2 (magnitude.significand * 2 ^ magnitude.exponent) =
        52 + magnitude.exponent := by
      have hpower := Nat.two_pow_pos magnitude.exponent
      have hne : magnitude.significand * 2 ^ magnitude.exponent ≠ 0 :=
        Nat.ne_of_gt (Nat.mul_pos (by omega) hpower)
      rw [Nat.log2_eq_iff hne, Nat.pow_add, Nat.add_right_comm, Nat.pow_add]
      exact ⟨Nat.mul_le_mul_right _ hle, Nat.mul_lt_mul_of_pos_right hlt hpower⟩
    omega

theorem pow_pos (count : Nat) : 0 < Nat.pow 2 count := Nat.two_pow_pos count

/-- The value of a magnitude in any unit rounds to the magnitude. -/
theorem exponent_mul_add_roundHalfEven (unit : Nat) (hunit : 0 < unit) :
    (Nat.log2 (magnitude.scaled * unit / unit) - 52) * Nat.pow 2 52 +
      roundHalfEven (magnitude.scaled * unit)
        (unit * Nat.pow 2 (Nat.log2 (magnitude.scaled * unit / unit) - 52)) =
      magnitude.rank := by
  have hpos := pow_pos magnitude.exponent
  have hexact : roundHalfEven magnitude.scaled (Nat.pow 2 magnitude.exponent) =
      magnitude.significand := by
    rw [scaled, roundHalfEven_of_dvd hpos (Nat.dvd_mul_left ..), Nat.mul_div_cancel _ hpos]
  rw [Nat.mul_div_cancel _ hunit, log2_scaled, Nat.mul_comm unit,
    roundHalfEven_mul_right hunit, hexact, exponent_mul_add_significand]

theorem nearestRank_scaled (magnitude : Magnitude) :
    nearestRank magnitude.scaled (Nat.pow 2 1074) = magnitude.rank := by
  have hpos := pow_pos 1074
  exact exponent_mul_add_roundHalfEven _ hpos

end Magnitude
end EntityModel
