import EntityModel.Number.Text
import Mathlib.Data.List.Induction

/-!
# Digits in a base

The digits of a base up to sixteen stand for a number by their places, the letters in either case.
Digits are read exactly if there is at least one and none is too large for the base
(`ofDigits?_eq_some_iff`).
-/

namespace EntityModel.Numeral

/-- Whether a character is the digit of a value, a letter in lower or in upper case. -/
def IsDigit (digit : Char) (value : Nat) : Prop :=
  "0123456789abcdef".toList[value]? = some digit ∨ "0123456789ABCDEF".toList[value]? = some digit

instance (digit : Char) (value : Nat) : Decidable (IsDigit digit value) :=
  inferInstanceAs (Decidable (_ ∨ _))

/-- Whether digits in a base stand for a number, the last one for itself and those before it for
the base times their number. -/
inductive HasValue (base : Nat) : List Char → Nat → Prop
  | one {digit : Char} {value : Nat} (hdigit : IsDigit digit value) (hlt : value < base) :
      HasValue base [digit] value
  | behind {digits : List Char} {digit : Char} {front value : Nat}
      (hfront : HasValue base digits front) (hdigit : IsDigit digit value) (hlt : value < base) :
      HasValue base (digits ++ [digit]) (front * base + value)

theorem digitValue?_eq_some_iff {digit : Char} {value : Nat} :
    digitValue? digit = some value ↔ IsDigit digit value := by
  constructor
  · intro hvalue
    -- No digit stands behind `f`, so the characters up to there are all that need a look.
    have hbound : digit.toNat < 103 := by
      unfold digitValue? at hvalue
      split_ifs at hvalue with hdecimal hlower hupper
      · simp only [Text.isAsciiDigit, Bool.and_eq_true, decide_eq_true_eq] at hdecimal
        exact Nat.lt_of_le_of_lt hdecimal.2 (by decide)
      · simp only [Bool.and_eq_true, decide_eq_true_eq] at hlower
        exact Nat.lt_of_le_of_lt hlower.2 (by decide)
      · simp only [Bool.and_eq_true, decide_eq_true_eq] at hupper
        exact Nat.lt_of_le_of_lt hupper.2 (by decide)
    have hall : ∀ code < 103, ∀ value ∈ digitValue? (Char.ofNat code),
        IsDigit (Char.ofNat code) value := by
      decide
    have hdigit := hall digit.toNat hbound
    rw [Char.ofNat_toNat] at hdigit
    exact hdigit value hvalue
  · have hlower : ∀ place : Fin 16,
        digitValue? ("0123456789abcdef".toList[place]) = some place.1 := by
      decide
    have hupper : ∀ place : Fin 16,
        digitValue? ("0123456789ABCDEF".toList[place]) = some place.1 := by
      decide
    rintro (hdigit | hdigit)
    · obtain ⟨hlt, rfl⟩ := List.getElem?_eq_some_iff.mp hdigit
      exact hlower ⟨value, hlt⟩
    · obtain ⟨hlt, rfl⟩ := List.getElem?_eq_some_iff.mp hdigit
      exact hupper ⟨value, hlt⟩

/-- The number of digits with one more behind them. -/
def withDigit? (base value : Nat) (char : Char) : Option Nat :=
  (digitValue? char).bind fun digit => if digit < base then some (value * base + digit) else none

theorem withDigit?_eq_some_iff {base front number : Nat} {char : Char} :
    withDigit? base front char = some number ↔
      ∃ value, IsDigit char value ∧ value < base ∧ front * base + value = number := by
  simp only [withDigit?, Option.bind_eq_some_iff, digitValue?_eq_some_iff,
    Option.ite_none_right_eq_some, Option.some.injEq]

theorem ofDigits?_eq_foldlM (base : Nat) {digits : List Char} (hne : digits ≠ []) :
    ofDigits? base digits = digits.foldlM (withDigit? base) 0 := by
  cases digits with
  | nil => exact absurd rfl hne
  | cons char digits => rfl

theorem ofDigits?_singleton (base : Nat) (char : Char) :
    ofDigits? base [char] = withDigit? base 0 char := by
  rw [ofDigits?_eq_foldlM base (List.cons_ne_nil _ _), List.foldlM_cons]
  exact Option.bind_fun_some _

theorem ofDigits?_append_singleton (base : Nat) {digits : List Char} (hne : digits ≠ [])
    (char : Char) : ofDigits? base (digits ++ [char]) =
      (ofDigits? base digits).bind (withDigit? base · char) := by
  have hne' : digits ++ [char] ≠ [] := by simp
  rw [ofDigits?_eq_foldlM base hne, ofDigits?_eq_foldlM base hne', List.foldlM_append]
  congr 1
  funext value
  rw [List.foldlM_cons]
  exact Option.bind_fun_some _

theorem HasValue.ne_nil {base number : Nat} {digits : List Char}
    (hvalue : HasValue base digits number) : digits ≠ [] := by
  cases hvalue <;> simp

/-- Digits are read as the number that they stand for. -/
theorem ofDigits?_eq_some_iff {base number : Nat} {digits : List Char} :
    ofDigits? base digits = some number ↔ HasValue base digits number := by
  constructor
  · intro hread
    -- From the last digit on, as it is the one that a value is made of.
    induction digits using List.reverseRecOn generalizing number with
    | nil => cases hread
    | append_singleton digits char ih =>
        by_cases hnil : digits = []
        · subst hnil
          rw [List.nil_append, ofDigits?_singleton, withDigit?_eq_some_iff] at hread
          obtain ⟨value, hdigit, hlt, rfl⟩ := hread
          rw [Nat.zero_mul, Nat.zero_add]
          exact .one hdigit hlt
        · rw [ofDigits?_append_singleton base hnil, Option.bind_eq_some_iff] at hread
          obtain ⟨front, hfront, hlast⟩ := hread
          obtain ⟨value, hdigit, hlt, rfl⟩ := withDigit?_eq_some_iff.mp hlast
          exact .behind (ih hfront) hdigit hlt
  · intro hvalue
    induction hvalue with
    | @one digit value hdigit hlt =>
        rw [ofDigits?_singleton, withDigit?_eq_some_iff]
        exact ⟨value, hdigit, hlt, by omega⟩
    | @behind digits digit front value hfront hdigit hlt ih =>
        rw [ofDigits?_append_singleton base hfront.ne_nil, ih, Option.bind_some,
          withDigit?_eq_some_iff]
        exact ⟨value, hdigit, hlt, rfl⟩

end EntityModel.Numeral
