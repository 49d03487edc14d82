import Mathlib.Data.List.TakeWhile
import Mathlib.Tactic.Positivity
import Mathlib.Tactic.Ring
import EntityModel.Proofs.Number.Rounding

/-!
# The shortest decimal reads back

Zeros may be moved between the digits of a decimal and its exponent. The exact decimal of a
magnitude reads back as the magnitude, and so does the shortest one.
-/

namespace EntityModel

namespace Decimal

variable {negative : Bool} {digits : Nat} {exponent : Int}

/-! ## Digits -/

theorem toDigits_mul_pow (hpos : 0 < digits) (zeros : Nat) :
    Nat.toDigits 10 (digits * 10 ^ zeros) =
      Nat.toDigits 10 digits ++ List.replicate zeros '0' := by
  induction zeros with
  | zero => simp
  | succ zeros ih =>
      have hshift : digits * 10 ^ (zeros + 1) = 10 * (digits * 10 ^ zeros) + 0 := by ring
      rw [hshift, ← Nat.toDigits_append_toDigits (by decide) (by positivity) (by decide), ih,
        List.append_assoc, List.replicate_succ']
      rfl

theorem width_mul_pow (hpos : 0 < digits) (zeros : Nat) :
    width (digits * 10 ^ zeros) = width digits + zeros := by
  rw [width, toDigits_mul_pow hpos, List.length_append, List.length_replicate, width]

theorem width_le_iff {count : Nat} (hcount : 0 < count) :
    width digits ≤ count ↔ digits < 10 ^ count :=
  Nat.length_toDigits_le_iff (by decide) hcount

/-- Zeros at the end of the digits make a multiple. -/
theorem exists_eq_mul_pow (digits : Nat) : ∃ kept, digits = kept *
    10 ^ ((Nat.toDigits 10 digits).reverse.takeWhile (· == '0')).length := by
  have hsplit := List.takeWhile_append_dropWhile (p := fun char => char == '0')
    (l := (Nat.toDigits 10 digits).reverse)
  have hzeros : (Nat.toDigits 10 digits).reverse.takeWhile (· == '0') =
      List.replicate ((Nat.toDigits 10 digits).reverse.takeWhile (· == '0')).length '0' := by
    refine List.eq_replicate_iff.mpr ⟨rfl, fun char hchar => ?_⟩
    simpa using List.mem_takeWhile_imp hchar
  generalize ((Nat.toDigits 10 digits).reverse.takeWhile (· == '0')).length = zeros at hzeros ⊢
  generalize (Nat.toDigits 10 digits).reverse.dropWhile (· == '0') = front at hsplit
  refine ⟨Nat.ofDigitChars 10 front.reverse 0, ?_⟩
  rw [hzeros, ← List.reverse_eq_iff, List.reverse_append, List.reverse_replicate] at hsplit
  have hread := congrArg (Nat.ofDigitChars 10 · 0) hsplit
  simp only [Nat.ofDigitChars_ten_toDigits, Nat.ofDigitChars_append,
    Nat.ofDigitChars_replicate_zero] at hread
  rw [← hread, Nat.mul_comm]

/-! ## Moving zeros -/

/-- Zeros at the end of the digits stand for an exponent. -/
theorem toNumber_shift (negative : Bool) (digits : Nat) (exponent : Int) (zeros : Nat) :
    toNumber negative ⟨digits * 10 ^ zeros, exponent - zeros⟩ =
      toNumber negative ⟨digits, exponent⟩ := by
  by_cases hzero : digits = 0
  · simp [toNumber, hzero]
  have hpos : 0 < digits := Nat.pos_of_ne_zero hzero
  have hshifted : digits * 10 ^ zeros ≠ 0 := by positivity
  have hpoint : ((width digits + zeros : Nat) : Int) + (exponent - zeros) =
      width digits + exponent := by
    push_cast
    ring
  simp only [toNumber, if_neg hzero, if_neg hshifted, width_mul_pow hpos, hpoint, Nat.pow_eq]
  split
  · rfl
  split
  · rfl
  -- Both are the same ratio, whether the point stands behind the digits or among them.
  by_cases hleft : 0 ≤ exponent - zeros
  · have hright : 0 ≤ exponent := by omega
    rw [if_pos hleft, if_pos hright]
    congr 1
    rw [Nat.mul_assoc, ← Nat.pow_add]
    congr 2
    omega
  by_cases hright : 0 ≤ exponent
  · rw [if_neg hleft, if_pos hright]
    apply Number.ofRatio_eq_of_mul_eq (by positivity) (by decide)
    rw [Nat.mul_one, Nat.mul_assoc, ← Nat.pow_add]
    congr 2
    omega
  · rw [if_neg hleft, if_neg hright]
    apply Number.ofRatio_eq_of_mul_eq (by positivity) (by positivity)
    rw [Nat.mul_assoc, ← Nat.pow_add]
    congr 2
    omega

theorem toNumber_normalize (negative : Bool) (decimal : Decimal) :
    decimal.normalize.toNumber negative = decimal.toNumber negative := by
  obtain ⟨digits, exponent⟩ := decimal
  by_cases hzero : digits = 0
  · simp [normalize, toNumber, hzero]
  obtain ⟨kept, hkept⟩ := exists_eq_mul_pow digits
  rw [normalize, if_neg hzero]
  generalize ((Nat.toDigits 10 digits).reverse.takeWhile (· == '0')).length = zeros at hkept ⊢
  have hshift := toNumber_shift negative kept (exponent + zeros) zeros
  rw [← hkept, add_sub_cancel_right] at hshift
  dsimp only
  rw [hshift, hkept, Nat.pow_eq, Nat.mul_div_cancel _ (by positivity)]

/-! ## Signs -/

/-- The sign of a decimal is that of its double. -/
theorem toNumber_of_denotes {decimal : Decimal} {magnitude : Magnitude}
    (hdenotes : decimal.Denotes magnitude) (negative : Bool) :
    decimal.toNumber negative = .finite negative magnitude := by
  rw [Denotes, toNumber] at hdenotes
  rw [toNumber]
  by_cases hzero : decimal.digits = 0
  · rw [if_pos hzero, Number.finite.injEq] at hdenotes
    rw [if_pos hzero, hdenotes.2]
  rw [if_neg hzero] at hdenotes ⊢
  dsimp only at hdenotes ⊢
  by_cases hlarge : (width decimal.digits : Int) + decimal.exponent > 310
  · rw [if_pos hlarge] at hdenotes
    cases hdenotes
  rw [if_neg hlarge] at hdenotes ⊢
  by_cases hsmall : (width decimal.digits : Int) + decimal.exponent < -330
  · rw [if_pos hsmall, Number.finite.injEq] at hdenotes
    rw [if_pos hsmall, hdenotes.2]
  rw [if_neg hsmall] at hdenotes ⊢
  by_cases hwhole : 0 ≤ decimal.exponent
  · rw [if_pos hwhole, Number.ofRatio_eq_finite_iff] at hdenotes
    rw [if_pos hwhole, Number.ofRatio_eq_finite_iff, hdenotes]
  · rw [if_neg hwhole, Number.ofRatio_eq_finite_iff] at hdenotes
    rw [if_neg hwhole, Number.ofRatio_eq_finite_iff, hdenotes]

/-- A decimal with digits behind its point denotes the magnitude that is nearest to it. -/
theorem denotes_of_nearestRank {magnitude : Magnitude} {places : Nat} (hdigits : digits ≠ 0)
    (hplaces : 0 < places) (hlarge : width digits ≤ places + 310)
    (hsmall : places ≤ width digits + 330)
    (hrank : nearestRank digits (10 ^ places) = magnitude.rank) :
    Denotes ⟨digits, -(places : Int)⟩ magnitude := by
  rw [Denotes, toNumber, if_neg hdigits]
  dsimp only
  rw [if_neg (by omega), if_neg (by omega), if_neg (by omega), Number.ofRatio_eq_finite_iff,
    neg_neg, Int.toNat_natCast]
  exact hrank

end Decimal

/-! ## Magnitudes -/

namespace Magnitude

open Decimal

variable {magnitude : Magnitude} {tie : Tie}

theorem scaled_lt (magnitude : Magnitude) : magnitude.scaled < 2 ^ (1024 + 1074) := by
  have hexponent : 53 + magnitude.exponent ≤ 1024 + 1074 := by
    have hle := magnitude.exponent_le
    omega
  refine Nat.lt_of_lt_of_le ?_ (Nat.pow_le_pow_right (by decide) hexponent)
  rw [Nat.pow_add]
  exact Nat.mul_lt_mul_of_pos_right magnitude.significand_lt (pow_pos _)

theorem eq_zero (hzero : magnitude.scaled = 0) : magnitude = zero := by
  have hsignificand : magnitude.significand = 0 :=
    (Nat.mul_eq_zero.mp hzero).resolve_right (pow_pos _).ne'
  have hsmall : magnitude.rank < 2 ^ 53 := by
    by_contra hlarge
    have hle := le_significand hlarge
    omega
  have hrank := magnitude.exponent_mul_add_significand
  rw [exponent_eq_zero hsmall, hsignificand, Nat.zero_mul] at hrank
  obtain ⟨rank, hlt⟩ := magnitude
  subst hrank
  rfl

/-- A value in binary places, written in as many decimal places: one factor of five for each. -/
theorem denotes_mul_pow {value : Nat} (places : Nat) (hplaces : 331 ≤ places) (hpos : 0 < value)
    (hlarge : value < 2 ^ (1024 + places)) (hsmall : 10 ^ (places - 331) ≤ 5 ^ places)
    (hrank : nearestRank value (2 ^ places) = magnitude.rank) :
    Denotes ⟨value * 5 ^ places, -(places : Int)⟩ magnitude := by
  have hfives : 0 < 5 ^ places := Nat.pow_pos (by decide)
  apply denotes_of_nearestRank
  · exact (Nat.mul_pos hpos hfives).ne'
  · omega
  · rw [width_le_iff (by omega)]
    calc
      value * 5 ^ places < 2 ^ (1024 + places) * 5 ^ places :=
        Nat.mul_lt_mul_of_pos_right hlarge hfives
      _ = 2 ^ 1024 * 10 ^ places := by rw [Nat.pow_add, Nat.mul_assoc, ← Nat.mul_pow]
      _ ≤ 10 ^ 310 * 10 ^ places := Nat.mul_le_mul_right _ (by decide +kernel)
      _ = 10 ^ (places + 310) := by rw [← Nat.pow_add, Nat.add_comm]
  · have hwidth : ¬ width (value * 5 ^ places) ≤ places - 331 := by
      by_cases hnone : places - 331 = 0
      · rw [hnone]
        exact Nat.not_le.mpr Nat.length_toDigits_pos
      · rw [width_le_iff (Nat.pos_of_ne_zero hnone), Nat.not_lt]
        exact hsmall.trans (Nat.le_mul_of_pos_left _ hpos)
    omega
  · have hten : 10 ^ places = 2 ^ places * 5 ^ places := by rw [← Nat.mul_pow]
    rw [hten, nearestRank_mul_right hfives, hrank]

/-- The exact decimal of a magnitude reads back as the magnitude. -/
theorem exact_denotes (magnitude : Magnitude) : magnitude.exact.Denotes magnitude := by
  by_cases hzero : magnitude.scaled = 0
  · rw [exact, Denotes, toNumber]
    dsimp only
    rw [hzero, Nat.zero_mul, if_pos rfl, eq_zero hzero]
  · exact denotes_mul_pow 1074 (by decide) (Nat.pos_of_ne_zero hzero) magnitude.scaled_lt
      (by decide +kernel) magnitude.nearestRank_scaled

/-- Of two decimals, one that reads back is taken. -/
theorem choose?_denotes {below above decimal : Decimal} {preferBelow : Bool}
    (hsome : magnitude.choose? below above preferBelow = some decimal) :
    decimal.Denotes magnitude := by
  rw [choose?] at hsome
  by_cases hbelow : below.Denotes magnitude
  · rw [if_pos hbelow] at hsome
    split at hsome
    next habove =>
      rw [← Option.some.inj hsome]
      exact of_decide_eq_true (Bool.and_eq_true_iff.mp habove).1
    next =>
      rw [← Option.some.inj hsome]
      exact hbelow
  · rw [if_neg hbelow] at hsome
    by_cases habove : above.Denotes magnitude
    · rw [if_pos habove] at hsome
      rw [← Option.some.inj hsome]
      exact habove
    · rw [if_neg habove] at hsome
      nomatch hsome

theorem withDigits?_denotes {count : Nat} {decimal : Decimal}
    (hsome : magnitude.withDigits? tie count = some decimal) : decimal.Denotes magnitude := by
  unfold withDigits? at hsome
  exact choose?_denotes hsome

theorem firstDecimal_denotes (counts : List Nat) :
    (magnitude.firstDecimal tie counts).Denotes magnitude := by
  rw [firstDecimal]
  cases hfirst : counts.findSome? (magnitude.withDigits? tie) with
  | none =>
      rw [Option.getD_none]
      exact exact_denotes magnitude
  | some decimal =>
      rw [Option.getD_some]
      obtain ⟨count, _, hcount⟩ := List.exists_of_findSome?_eq_some hfirst
      exact withDigits?_denotes hcount

/-- The shortest decimal of a magnitude reads back as the magnitude. -/
theorem shortest_denotes : (magnitude.shortest tie).Denotes magnitude := by
  rw [shortest, Denotes, toNumber_normalize]
  exact firstDecimal_denotes _

end Magnitude

end EntityModel
