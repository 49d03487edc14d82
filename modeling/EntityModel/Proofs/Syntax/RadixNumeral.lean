import EntityModel.Proofs.Number.Digits
import EntityModel.Proofs.Number.Whole
import EntityModel.Syntax.Lowering

/-!
# Numerals with a radix prefix

A numeral with a radix prefix stands for the number that its digits write, whatever case they are
written in and whatever separates them. It is read as a number only below `2 ^ 63`: a larger one
is syntax that is known by its kind alone (`isRead_iff`).
-/

namespace EntityModel

namespace Numeral

open Text

variable {digit : Char} {base value : Nat} {digits : List Char}

/-- Whether a text is digits of a base with single underscores between them, and which number they
stand for. -/
inductive WritesDigits (base : Nat) : List Char → Nat → Prop
  | one {digit : Char} {value : Nat} (hdigit : IsDigit digit value) (hlt : value < base) :
      WritesDigits base [digit] value
  | behind {text : List Char} {digit : Char} {front value : Nat}
      (hfront : WritesDigits base text front) (hdigit : IsDigit digit value) (hlt : value < base) :
      WritesDigits base (text ++ [digit]) (front * base + value)
  | apart {text : List Char} {digit : Char} {front value : Nat}
      (hfront : WritesDigits base text front) (hdigit : IsDigit digit value) (hlt : value < base) :
      WritesDigits base (text ++ ['_', digit]) (front * base + value)

theorem IsDigit.ne (hdigit : IsDigit digit value) : digit ≠ '_' ∧ digit ≠ 'n' := by
  rw [← digitValue?_eq_some_iff] at hdigit
  constructor <;> rintro rfl <;> cases hdigit

/-- A digit in lower case has the same value. -/
theorem IsDigit.asciiLower (hdigit : IsDigit digit value) : IsDigit (asciiLower digit) value := by
  have hlower : "0123456789abcdef".toList = "0123456789abcdef".toList.map Text.asciiLower := by
    decide
  have hupper : "0123456789abcdef".toList = "0123456789ABCDEF".toList.map Text.asciiLower := by
    decide
  refine Or.inl ?_
  rcases hdigit with hdigit | hdigit
  · rw [hlower, List.getElem?_map, hdigit]
    rfl
  · rw [hupper, List.getElem?_map, hdigit]
    rfl

theorem HasValue.map_asciiLower (hvalue : HasValue base digits value) :
    HasValue base (digits.map asciiLower) value := by
  induction hvalue with
  | one hdigit hlt => exact .one hdigit.asciiLower hlt
  | behind _ hdigit hlt ih =>
      rw [List.map_append]
      exact .behind ih hdigit.asciiLower hlt

theorem HasValue.exists_last (hvalue : HasValue base digits value) :
    ∃ front last, digits = front ++ [last] ∧ last ≠ 'n' := by
  cases hvalue with
  | one hdigit _ => exact ⟨[], _, rfl, hdigit.ne.2⟩
  | behind _ hdigit _ => exact ⟨_, _, rfl, hdigit.ne.2⟩

/-- Digits need not be set apart. -/
theorem HasValue.writesDigits (hvalue : HasValue base digits value) :
    WritesDigits base digits value := by
  induction hvalue with
  | one hdigit hlt => exact .one hdigit hlt
  | behind _ hdigit hlt ih => exact .behind ih hdigit hlt

/-- Underscores between digits count for nothing. -/
theorem WritesDigits.hasValue (hdigits : WritesDigits base digits value) :
    HasValue base (digits.filter (· ≠ '_')) value := by
  induction hdigits with
  | one hdigit hlt =>
      rw [List.filter_cons_of_pos (by simpa using hdigit.ne.1)]
      exact .one hdigit hlt
  | behind _ hdigit hlt ih =>
      rw [List.filter_append]
      simpa [hdigit.ne.1] using ih.behind hdigit hlt
  | apart _ hdigit hlt ih =>
      rw [List.filter_append]
      simpa [hdigit.ne.1] using ih.behind hdigit hlt

end Numeral

namespace Literal

open Text Numeral

/-- The letters of the radix prefixes and their bases. -/
def radixes : List (Char × Nat) :=
  [('x', 16), ('X', 16), ('o', 8), ('O', 8), ('b', 2), ('B', 2)]

/-- Whether a text is a numeral with a radix prefix, at most with the suffix of a big integer, and
which number it stands for. -/
inductive IsRadixNumeral : List Char → Nat → Prop
  | intro {letter : Char} {base value : Nat} {digits suffix : List Char}
      (hradix : (letter, base) ∈ radixes) (hdigits : WritesDigits base digits value)
      (hsuffix : suffix = [] ∨ suffix = ['n']) :
      IsRadixNumeral ('0' :: letter :: (digits ++ suffix)) value

/-- Whether a numeral is read as a number, and as the one that it stands for where every natural
number is a double. -/
def IsRead (literal : List Char) (value : Nat) : Prop :=
  ∃ number, numberValue? literal = some number ∧ (value ≤ 2 ^ 53 → number.toNat? = some value)

variable {letter : Char} {base value : Nat} {digits suffix literal : List Char}

/-! ## Values -/

/-- The suffix of a big integer falls off behind a digit. -/
theorem dropWhile_suffix {text : List Char}
    (htext : ∃ front last, text = front ++ [last] ∧ last ≠ 'n')
    (hsuffix : suffix = [] ∨ suffix = ['n']) :
    ((text ++ suffix).reverse.dropWhile (· = 'n')).reverse = text := by
  obtain ⟨front, last, rfl, hne⟩ := htext
  rcases hsuffix with rfl | rfl <;> simp [hne]

theorem plainNumeral_radix (hletter : letter ≠ '_') (hdigits : WritesDigits base digits value)
    (hsuffix : suffix = [] ∨ suffix = ['n']) :
    plainNumeral ('0' :: letter :: (digits ++ suffix)) =
      '0' :: asciiLower letter :: (digits.filter (· ≠ '_')).map asciiLower := by
  have hfilter : ('0' :: letter :: (digits ++ suffix)).filter (· ≠ '_') =
      '0' :: letter :: digits.filter (· ≠ '_') ++ suffix := by
    rcases hsuffix with rfl | rfl <;> simp [hletter]
  obtain ⟨front, last, hlast, hne⟩ := hdigits.hasValue.exists_last
  have htext : '0' :: letter :: digits.filter (· ≠ '_') = '0' :: letter :: front ++ [last] := by
    rw [hlast]
    rfl
  rw [plainNumeral, hfilter, dropWhile_suffix ⟨_, _, htext, hne⟩ hsuffix]
  rfl

theorem radixValue?_of_hasValue (hvalue : HasValue base digits value) :
    radixValue? base digits = if value < 2 ^ 63 then some (Number.ofNat value) else none := by
  have hguard : radixValue? base digits =
      (guard (value < 2 ^ 63) : Option Unit).bind fun _ => some (Number.ofNat value) := by
    rw [radixValue?, ofDigits?_eq_some_iff.mpr hvalue]
    rfl
  rw [hguard, guard]
  split
  · rfl
  · rfl

/-- Below the limit a numeral with a radix prefix is read as the double nearest to what it stands
for, from the limit on it is not read as a number. -/
theorem numberValue?_of_isRadixNumeral (hliteral : IsRadixNumeral literal value) :
    numberValue? literal = if value < 2 ^ 63 then some (Number.ofNat value) else none := by
  obtain ⟨hradix, hdigits, hsuffix⟩ := hliteral
  have hvalue := hdigits.hasValue.map_asciiLower
  simp only [radixes, List.mem_cons, Prod.mk.injEq, List.not_mem_nil, or_false] at hradix
  rcases hradix with ⟨rfl, rfl⟩ | ⟨rfl, rfl⟩ | ⟨rfl, rfl⟩ | ⟨rfl, rfl⟩ | ⟨rfl, rfl⟩ | ⟨rfl, rfl⟩
  all_goals
    rw [numberValue?, plainNumeral_radix (by decide) hdigits hsuffix]
    exact radixValue?_of_hasValue hvalue

end Literal

namespace Syntax

open Literal Numeral

variable {value : Nat} {literal : List Char}

/-- A numeral with a radix prefix is read as a number exactly if it stands for one below `2 ^ 63`,
and then as the double nearest to it. Its node in a syntax tree is lowered to that number, and that
of a larger numeral to no more than the name of its kind. -/
theorem isRead_iff (hliteral : IsRadixNumeral literal value) :
    (IsRead literal value ↔ value < 2 ^ 63) ∧
      (value < 2 ^ 63 → numberValue? literal = some (Number.ofNat value)) ∧
      ∀ tree : Tree, tree.head.kind = "number" → tree.head.text.toList = literal →
        tree.lower = if value < 2 ^ 63 then .number (.ofNat value) else .other "number" := by
  have hvalue := numberValue?_of_isRadixNumeral hliteral
  refine ⟨⟨?_, ?_⟩, ?_, ?_⟩
  · rintro ⟨number, hread, -⟩
    by_contra hlt
    rw [hvalue, if_neg hlt] at hread
    cases hread
  · intro hlt
    rw [if_pos hlt] at hvalue
    exact ⟨_, hvalue, Number.toNat?_ofNat⟩
  · intro hlt
    rw [hvalue, if_pos hlt]
  · rintro ⟨node, children⟩ hkind htext
    rw [Tree.head_node] at hkind htext
    by_cases hlt : value < 2 ^ 63
    · rw [if_pos hlt] at hvalue ⊢
      simp [Part.lowered, hkind, htext, hvalue]
    · rw [if_neg hlt] at hvalue ⊢
      simp [Part.lowered, hkind, htext, hvalue]

/-- A big integer with digits in both cases. -/
theorem isRead_iff_hex :
    let tree : Tree :=
      .node ⟨"number", none, "0xFf_0n", 0, 0, true, false, false, false, false⟩ []
    IsRadixNumeral "0xFf_0n".toList 4080 ∧ IsRead "0xFf_0n".toList 4080 ∧
      numberValue? "0xFf_0n".toList = some (Number.ofNat 4080) ∧
      tree.lower = .number (.ofNat 4080) := by
  intro tree
  have hfront : WritesDigits 16 "Ff".toList 255 :=
    (ofDigits?_eq_some_iff.mp (by decide)).writesDigits
  have hdigits : WritesDigits 16 "Ff_0".toList (255 * 16 + 0) :=
    .apart hfront (.inl rfl) (by decide)
  have hradix : ('x', 16) ∈ radixes := by decide
  have hliteral : IsRadixNumeral "0xFf_0n".toList 4080 := .intro hradix hdigits (.inr rfl)
  obtain ⟨hread, hvalue, hlower⟩ := isRead_iff hliteral
  refine ⟨hliteral, hread.mpr (by decide), hvalue (by decide), ?_⟩
  rw [hlower tree rfl rfl, if_pos (by decide)]

/-- The least number that is not read is `2 ^ 63`. -/
theorem not_isRead_limit :
    ¬ ∀ literal value, IsRadixNumeral literal value → IsRead literal value := by
  intro hread
  have hdigits : WritesDigits 16 "8000000000000000".toList (2 ^ 63) :=
    (ofDigits?_eq_some_iff.mp (by decide)).writesDigits
  have hradix : ('x', 16) ∈ radixes := by decide
  have hliteral : IsRadixNumeral "0x8000000000000000".toList (2 ^ 63) :=
    .intro hradix hdigits (.inl rfl)
  obtain ⟨number, hnumber, -⟩ := hread _ _ hliteral
  have hvalue := numberValue?_of_isRadixNumeral hliteral
  rw [if_neg (Nat.lt_irrefl _), hnumber] at hvalue
  cases hvalue

end Syntax

end EntityModel
