import EntityModel.Proofs.Literal.Elements
import EntityModel.Proofs.Number.Digits
import Mathlib.Data.List.Forall2
import Mathlib.Data.Option.Basic

/-!
# Spellings of characters

A character has many spellings inside a string literal: itself, one letter behind a backslash, or
its code point in one of four forms (`WritesCode`). However each character is spelled, the spelled
text stands for the characters. A code point that has none of the four forms is malformed: it is
kept, and reading goes on behind its letter.
-/

namespace EntityModel.Literal

open Numeral (HasValue)

/-- Whether digits are a number of hexadecimal digits that stand for a value. -/
def IsHex (count : Nat) (digits : List Char) (value : Nat) : Prop :=
  digits.length = count ∧ HasValue 16 digits value

/-- Whether a text behind a backslash and a letter writes the code point of a character: in two
digits, in four, as a pair of surrogates of four each, or in up to six between braces. -/
inductive WritesCode : (letter : Char) → (payload : List Char) → (char : Char) → Prop
  | byte {digits : List Char} {char : Char} (hdigits : IsHex 2 digits char.toNat) :
      WritesCode 'x' digits char
  | unit {digits : List Char} {char : Char} (hdigits : IsHex 4 digits char.toNat) :
      WritesCode 'u' digits char
  | pair {front back : List Char} {high low : Nat} {char : Char} (hfront : IsHex 4 front high)
      (hback : IsHex 4 back low) (hhigh : 0xd800 ≤ high ∧ high < 0xdc00)
      (hlow : 0xdc00 ≤ low ∧ low < 0xe000)
      (hcode : 0x10000 + (high - 0xd800) * 0x400 + (low - 0xdc00) = char.toNat) :
      WritesCode 'u' (front ++ '\\' :: 'u' :: back) char
  | braced {count : Nat} {digits : List Char} {char : Char} (hcount : 1 ≤ count ∧ count ≤ 6)
      (hdigits : IsHex count digits char.toNat) :
      WritesCode 'u' ('\x7b' :: (digits ++ ['\x7d'])) char

/-- The characters that one letter behind a backslash stands for. -/
def letterEscapes : List (Char × Char) :=
  [('n', '\n'), ('t', '\t'), ('r', '\r'), ('b', '\x08'), ('f', '\x0c'), ('v', '\x0b'),
    ('0', '\x00')]

/-- Whether a text spells a character inside a string literal. -/
inductive Spells : (spelling : List Char) → (char : Char) → Prop
  | raw {char : Char} (hchar : char ≠ '\\') : Spells [char] char
  | letter {letter char : Char} (hletter : (letter, char) ∈ letterEscapes) :
      Spells ['\\', letter] char
  | escaped {char : Char}
      (hchar : char ∉ ['n', 't', 'r', 'b', 'f', 'v', '0', 'x', 'u', '\n']) :
      Spells ['\\', char] char
  | code {letter char : Char} {payload : List Char} (hcode : WritesCode letter payload char) :
      Spells ('\\' :: letter :: payload) char

/-! ## Digits -/

theorem hex?_eq_some_iff {count value : Nat} {text : List Char} :
    hex? count text = some value ↔ ∃ digits rest, text = digits ++ rest ∧
      IsHex count digits value := by
  unfold hex?
  constructor
  · intro hread
    split at hread
    next hlength =>
      exact ⟨text.take count, text.drop count, (List.take_append_drop count text).symm, hlength,
        Numeral.ofDigits?_eq_some_iff.mp hread⟩
    next => cases hread
  · rintro ⟨digits, rest, rfl, rfl, hvalue⟩
    rw [List.take_left, if_pos rfl]
    exact Numeral.ofDigits?_eq_some_iff.mpr hvalue

theorem scalar?_eq_some_iff {code : Nat} {char : Char} :
    scalar? code = some char ↔ code = char.toNat := by
  unfold scalar?
  constructor
  · intro hread
    split at hread
    next hvalid =>
      cases hread
      rw [Char.ofNat, dif_pos hvalid]
      rfl
    next => cases hread
  · rintro rfl
    have hvalid : char.toNat.isValidChar := char.valid
    rw [if_pos hvalid, Char.ofNat_toNat]

/-- Hexadecimal digits are no braces. -/
theorem ne_of_isDigit {digit : Char} {value : Nat} (hdigit : Numeral.IsDigit digit value) :
    digit ≠ '\x7b' ∧ digit ≠ '\x7d' := by
  rw [← Numeral.digitValue?_eq_some_iff] at hdigit
  constructor <;> rintro rfl <;> cases hdigit

theorem exists_isDigit_of_mem {base number : Nat} {digits : List Char}
    (hvalue : HasValue base digits number) {digit : Char} (hmem : digit ∈ digits) :
    ∃ value, Numeral.IsDigit digit value := by
  induction hvalue with
  | one hdigit _ => exact ⟨_, List.mem_singleton.mp hmem ▸ hdigit⟩
  | behind _ hdigit _ ih =>
      rcases List.mem_append.mp hmem with hfront | hlast
      · exact ih hfront
      · exact ⟨_, List.mem_singleton.mp hlast ▸ hdigit⟩

/-! ## Code points -/

theorem byteEscape?_eq_some_iff {text : List Char} {char : Char} {count : Nat} :
    byteEscape? text = some (char, count) ↔ ∃ digits rest, text = digits ++ rest ∧
      digits.length = count ∧ IsHex 2 digits char.toNat := by
  constructor
  · intro hread
    obtain ⟨code, hcode, hread⟩ := Option.bind_eq_some_iff.mp hread
    obtain ⟨_, hscalar, hread⟩ := Option.bind_eq_some_iff.mp hread
    cases hread
    obtain ⟨digits, rest, rfl, hdigits⟩ := hex?_eq_some_iff.mp hcode
    rw [scalar?_eq_some_iff.mp hscalar] at hdigits
    exact ⟨digits, rest, rfl, hdigits.1, hdigits⟩
  · rintro ⟨digits, rest, rfl, rfl, hdigits⟩
    have hcode : hex? 2 (digits ++ rest) = some char.toNat :=
      hex?_eq_some_iff.mpr ⟨digits, rest, rfl, hdigits⟩
    simp [byteEscape?, hcode, scalar?_eq_some_iff.mpr rfl, hdigits.1]

theorem takeWhile_digits {count value : Nat} {digits : List Char}
    (hdigits : IsHex count digits value) (rest : List Char) :
    (digits ++ '\x7d' :: rest).takeWhile (· ≠ '\x7d') = digits := by
  have hall : ∀ digit ∈ digits, decide (digit ≠ '\x7d') = true := by
    intro digit hmem
    obtain ⟨value, hdigit⟩ := exists_isDigit_of_mem hdigits.2 hmem
    exact decide_eq_true (ne_of_isDigit hdigit).2
  rw [List.takeWhile_append_of_pos hall, List.takeWhile_cons_of_neg (by decide), List.append_nil]

/-- A text that goes on behind what stands up to a closing brace has one there. -/
theorem exists_eq_append_brace {text : List Char}
    (hlength : (text.takeWhile (· ≠ '\x7d')).length < text.length) :
    ∃ rest, text = text.takeWhile (· ≠ '\x7d') ++ '\x7d' :: rest := by
  have htext := List.takeWhile_append_dropWhile (p := (· ≠ '\x7d')) (l := text)
  cases hdrop : text.dropWhile (· ≠ '\x7d') with
  | nil =>
      rw [hdrop, List.append_nil] at htext
      rw [htext] at hlength
      exact absurd hlength (Nat.lt_irrefl _)
  | cons brace rest =>
      have hstop := List.head?_dropWhile_not (· ≠ '\x7d') text
      rw [hdrop] at hstop
      obtain rfl : brace = '\x7d' := not_not.mp (of_decide_eq_false hstop)
      rw [hdrop] at htext
      exact ⟨rest, htext.symm⟩

theorem bracedEscape?_eq_some_iff {text : List Char} {char : Char} {count : Nat} :
    bracedEscape? text = some (char, count) ↔ ∃ digits rest, text = digits ++ '\x7d' :: rest ∧
      digits.length + 1 = count ∧ (1 ≤ digits.length ∧ digits.length ≤ 6) ∧
      HasValue 16 digits char.toNat := by
  constructor
  · intro hread
    obtain ⟨_, hguard, hread⟩ := Option.bind_eq_some_iff.mp hread
    obtain ⟨code, hcode, hread⟩ := Option.bind_eq_some_iff.mp hread
    obtain ⟨_, hscalar, hread⟩ := Option.bind_eq_some_iff.mp hread
    cases hread
    rw [Option.guard_eq_some', Bool.and_eq_true, Bool.and_eq_true, decide_eq_true_eq,
      decide_eq_true_eq, decide_eq_true_eq] at hguard
    obtain ⟨⟨hlength, hpos⟩, hle⟩ := hguard
    obtain ⟨rest, htext⟩ := exists_eq_append_brace hlength
    rw [Numeral.ofDigits?_eq_some_iff, scalar?_eq_some_iff.mp hscalar] at hcode
    exact ⟨_, rest, htext, rfl, ⟨hpos, hle⟩, hcode⟩
  · rintro ⟨digits, rest, rfl, rfl, ⟨hpos, hle⟩, hvalue⟩
    have htake := takeWhile_digits ⟨rfl, hvalue⟩ rest
    refine Option.bind_eq_some_iff.mpr ⟨(), ?_, Option.bind_eq_some_iff.mpr ⟨char.toNat, ?_,
      Option.bind_eq_some_iff.mpr ⟨char, scalar?_eq_some_iff.mpr rfl, by rw [htake]; rfl⟩⟩⟩
    · rw [htake, Option.guard_eq_some']
      simp [hpos, hle]
    · rw [htake]
      exact Numeral.ofDigits?_eq_some_iff.mpr hvalue

theorem lowSurrogate?_eq_some_iff {text : List Char} {low : Nat} :
    lowSurrogate? text = some low ↔ ∃ digits rest, text = '\\' :: 'u' :: (digits ++ rest) ∧
      IsHex 4 digits low ∧ 0xdc00 ≤ low ∧ low < 0xe000 := by
  constructor
  · intro hread
    unfold lowSurrogate? at hread
    split at hread
    next text =>
      obtain ⟨unit, hcode, hread⟩ := Option.bind_eq_some_iff.mp hread
      obtain ⟨_, hguard, hread⟩ := Option.bind_eq_some_iff.mp hread
      cases hread
      obtain ⟨digits, rest, rfl, hdigits⟩ := hex?_eq_some_iff.mp hcode
      rw [Option.guard_eq_some', Bool.and_eq_true, decide_eq_true_eq, decide_eq_true_eq] at hguard
      exact ⟨digits, rest, rfl, hdigits, hguard⟩
    next => cases hread
  · rintro ⟨digits, rest, rfl, hdigits, hlow⟩
    refine Option.bind_eq_some_iff.mpr ⟨low, hex?_eq_some_iff.mpr ⟨digits, rest, rfl, hdigits⟩,
      Option.bind_eq_some_iff.mpr ⟨(), ?_, rfl⟩⟩
    rw [Option.guard_eq_some']
    simp [hlow]

theorem IsHex.head?_ne {count value : Nat} {digits : List Char}
    (hdigits : IsHex count digits value) : digits.head? ≠ some '\x7b' := by
  intro hhead
  obtain ⟨_, hdigit⟩ := exists_isDigit_of_mem hdigits.2 (List.mem_of_head? hhead)
  exact (ne_of_isDigit hdigit).1 rfl

theorem unitEscape?_unit {digits : List Char} {char : Char}
    (hdigits : IsHex 4 digits char.toNat) (rest : List Char) :
    unitEscape? (digits ++ rest) = some (char, digits.length) := by
  -- no character is a surrogate, so one unit is all of it
  have hplain : ¬ ((0xd800 ≤ char.toNat && char.toNat < 0xdc00) = true) := by
    have hvalid : char.toNat.isValidChar := char.valid
    simp only [Nat.isValidChar] at hvalid
    simp only [Bool.and_eq_true, decide_eq_true_eq]
    omega
  refine Option.bind_eq_some_iff.mpr ⟨char.toNat,
    hex?_eq_some_iff.mpr ⟨digits, rest, rfl, hdigits⟩, ?_⟩
  rw [if_neg hplain, hdigits.1]
  exact Option.bind_eq_some_iff.mpr ⟨char, scalar?_eq_some_iff.mpr rfl, rfl⟩

theorem unitEscape?_pair {front back : List Char} {high low : Nat} {char : Char}
    (hfront : IsHex 4 front high) (hback : IsHex 4 back low)
    (hhigh : 0xd800 ≤ high ∧ high < 0xdc00) (hlow : 0xdc00 ≤ low ∧ low < 0xe000)
    (hcode : 0x10000 + (high - 0xd800) * 0x400 + (low - 0xdc00) = char.toNat)
    (rest : List Char) :
    unitEscape? (front ++ '\\' :: 'u' :: (back ++ rest)) =
      some (char, (front ++ '\\' :: 'u' :: back).length) := by
  have hsurrogate : (0xd800 ≤ high && high < 0xdc00) = true := by simp [hhigh]
  refine Option.bind_eq_some_iff.mpr ⟨high,
    hex?_eq_some_iff.mpr ⟨front, '\\' :: 'u' :: (back ++ rest), rfl, hfront⟩, ?_⟩
  rw [if_pos hsurrogate, List.drop_left' hfront.1]
  refine Option.bind_eq_some_iff.mpr ⟨low,
    lowSurrogate?_eq_some_iff.mpr ⟨back, rest, rfl, hback, hlow⟩, ?_⟩
  refine Option.bind_eq_some_iff.mpr ⟨char, scalar?_eq_some_iff.mpr hcode, ?_⟩
  simp [hfront.1, hback.1]

/-- What is read as one unit or two is written so. -/
theorem exists_writesCode_of_unitEscape? {text : List Char} {char : Char} {count : Nat}
    (hread : unitEscape? text = some (char, count)) : ∃ payload rest, text = payload ++ rest ∧
      payload.length = count ∧ payload.head? ≠ some '\x7b' ∧ WritesCode 'u' payload char := by
  obtain ⟨unit, hunit, hread⟩ := Option.bind_eq_some_iff.mp hread
  obtain ⟨front, rest, rfl, hfront⟩ := hex?_eq_some_iff.mp hunit
  split at hread
  next hhigh =>
    obtain ⟨low, hlow, hread⟩ := Option.bind_eq_some_iff.mp hread
    obtain ⟨_, hscalar, hread⟩ := Option.bind_eq_some_iff.mp hread
    cases hread
    rw [List.drop_left' hfront.1] at hlow
    obtain ⟨back, rest, rfl, hback, hrange⟩ := lowSurrogate?_eq_some_iff.mp hlow
    rw [Bool.and_eq_true, decide_eq_true_eq, decide_eq_true_eq] at hhigh
    refine ⟨front ++ '\\' :: 'u' :: back, rest, by simp, by simp [hfront.1, hback.1], ?_,
      .pair hfront hback hhigh hrange (scalar?_eq_some_iff.mp hscalar)⟩
    rw [List.head?_append_of_ne_nil _ hfront.2.ne_nil]
    exact hfront.head?_ne
  next =>
    obtain ⟨_, hscalar, hread⟩ := Option.bind_eq_some_iff.mp hread
    cases hread
    rw [scalar?_eq_some_iff.mp hscalar] at hfront
    exact ⟨front, rest, rfl, hfront.1, hfront.head?_ne, .unit hfront⟩

theorem unitEscape?_eq_some_iff {text : List Char} {char : Char} {count : Nat} :
    unitEscape? text = some (char, count) ↔ ∃ payload rest, text = payload ++ rest ∧
      payload.length = count ∧ payload.head? ≠ some '\x7b' ∧ WritesCode 'u' payload char := by
  refine ⟨exists_writesCode_of_unitEscape?, ?_⟩
  rintro ⟨payload, rest, rfl, rfl, hhead, hcode⟩
  cases hcode with
  | unit hdigits => exact unitEscape?_unit hdigits rest
  | pair hfront hback hhigh hlow hcode =>
      rw [List.append_assoc]
      exact unitEscape?_pair hfront hback hhigh hlow hcode rest
  | braced => exact absurd rfl hhead

theorem codeEscape?_byte (text : List Char) : codeEscape? text 0 'x' = some (byteEscape? text) := by
  simp [codeEscape?]

theorem codeEscape?_braced (text : List Char) : codeEscape? ('\x7b' :: text) 0 'u' =
    some ((bracedEscape? text).map fun (char, count) => (char, 1 + count)) := by
  simp [codeEscape?, from?]

theorem codeEscape?_unit {text : List Char} (hhead : text.head? ≠ some '\x7b') :
    codeEscape? text 0 'u' = some (unitEscape? text) := by
  rw [List.head?_eq_getElem?] at hhead
  simp [codeEscape?, hhead]

/-- Only the form in braces starts with a brace. -/
theorem WritesCode.cases_head? {payload : List Char} {char : Char}
    (hcode : WritesCode 'u' payload char) : payload ≠ [] ∧ (payload.head? ≠ some '\x7b' ∨
      ∃ digits, payload = '\x7b' :: (digits ++ ['\x7d']) ∧
        (1 ≤ digits.length ∧ digits.length ≤ 6) ∧ HasValue 16 digits char.toNat) := by
  cases hcode with
  | unit hdigits => exact ⟨hdigits.2.ne_nil, Or.inl hdigits.head?_ne⟩
  | pair hfront =>
      refine ⟨by simp, Or.inl ?_⟩
      rw [List.head?_append_of_ne_nil _ hfront.2.ne_nil]
      exact hfront.head?_ne
  | @braced count digits _ hcount hdigits =>
      obtain ⟨rfl, hvalue⟩ := hdigits
      exact ⟨List.cons_ne_nil _ _, Or.inr ⟨digits, rfl, hcount, hvalue⟩⟩

/-- A code point in braces is read behind an opening brace. -/
theorem codeEscape?_braced_eq_some_iff {text : List Char} {char : Char} {next : Nat} :
    codeEscape? ('\x7b' :: text) 0 'u' = some (some (char, next)) ↔ ∃ payload rest,
      '\x7b' :: text = payload ++ rest ∧ payload.length = next ∧ WritesCode 'u' payload char := by
  rw [codeEscape?_braced, Option.some.injEq, Option.map_eq_some_iff]
  constructor
  · rintro ⟨⟨_, count⟩, hread, heq⟩
    cases heq
    obtain ⟨digits, rest, rfl, rfl, hcount, hvalue⟩ := bracedEscape?_eq_some_iff.mp hread
    exact ⟨'\x7b' :: (digits ++ ['\x7d']), rest, by simp, by simp [Nat.add_comm],
      .braced hcount ⟨rfl, hvalue⟩⟩
  · rintro ⟨payload, rest, htext, rfl, hcode⟩
    obtain ⟨hne, hfree | ⟨digits, rfl, hcount, hvalue⟩⟩ := hcode.cases_head?
    · rw [← List.head?_append_of_ne_nil _ hne, ← htext] at hfree
      exact absurd rfl hfree
    · rw [List.cons_append, List.cons.injEq, List.append_assoc] at htext
      have hread : bracedEscape? text = some (char, digits.length + 1) :=
        bracedEscape?_eq_some_iff.mpr ⟨digits, rest, htext.2, rfl, hcount, hvalue⟩
      exact ⟨(char, digits.length + 1), hread, by simp [Nat.add_comm]⟩

/-- A code point is read exactly if a text starts with one of its forms. -/
theorem codeEscape?_eq_some_iff {letter : Char} (hletter : letter = 'x' ∨ letter = 'u')
    {text : List Char} {char : Char} {next : Nat} :
    codeEscape? text 0 letter = some (some (char, next)) ↔ ∃ payload rest,
      text = payload ++ rest ∧ payload.length = next ∧ WritesCode letter payload char := by
  rcases hletter with rfl | rfl
  · rw [codeEscape?_byte, Option.some.injEq, byteEscape?_eq_some_iff]
    constructor
    · rintro ⟨digits, rest, rfl, rfl, hdigits⟩
      exact ⟨digits, rest, rfl, rfl, .byte hdigits⟩
    · rintro ⟨payload, rest, rfl, rfl, hcode⟩
      cases hcode with
      | byte hdigits => exact ⟨payload, rest, rfl, rfl, hdigits⟩
  · by_cases hhead : text.head? = some '\x7b'
    · obtain ⟨text, rfl⟩ := List.head?_eq_some_iff.mp hhead
      exact codeEscape?_braced_eq_some_iff
    · rw [codeEscape?_unit hhead, Option.some.injEq, unitEscape?_eq_some_iff]
      constructor
      · rintro ⟨payload, rest, rfl, rfl, _, hcode⟩
        exact ⟨payload, rest, rfl, rfl, hcode⟩
      · rintro ⟨payload, rest, rfl, rfl, hcode⟩
        refine ⟨payload, rest, rfl, rfl, ?_, hcode⟩
        rwa [List.head?_append_of_ne_nil _ hcode.cases_head?.1] at hhead

theorem codeEscape?_eq_none_iff {letter : Char} (hletter : letter = 'x' ∨ letter = 'u')
    {text : List Char} : codeEscape? text 0 letter = some none ↔
      ∀ payload char, WritesCode letter payload char → ¬ payload <+: text := by
  obtain ⟨read, hread⟩ := exists_codeEscape? text 0 letter
  constructor
  · rintro hnone payload char hcode ⟨rest, rfl⟩
    have hsome := (codeEscape?_eq_some_iff hletter).mpr ⟨payload, rest, rfl, rfl, hcode⟩
    rw [hnone] at hsome
    cases hsome
  · intro hnone
    rw [hread]
    cases read with
    | none => rfl
    | some read =>
        obtain ⟨payload, rest, rfl, _, hcode⟩ := (codeEscape?_eq_some_iff hletter).mp hread
        exact absurd (List.prefix_append payload rest) (hnone payload read.1 hcode)

/-! ## Spelled text -/

theorem WritesCode.letter_eq {letter char : Char} {payload : List Char}
    (hcode : WritesCode letter payload char) : letter = 'x' ∨ letter = 'u' := by
  cases hcode <;> simp

/-- A spelling stands for its character, whatever stands behind it. -/
theorem unescape_append_of_spells {spelling : List Char} {char : Char}
    (hspells : Spells spelling char) (rest : List Char) :
    unescape (spelling ++ rest) = char :: unescape rest := by
  cases hspells with
  | raw hchar => exact unescape_cons_of_ne hchar rest
  | @letter letter _ hletter =>
      simp only [letterEscapes, List.mem_cons, Prod.mk.injEq, List.not_mem_nil, or_false] at hletter
      rcases hletter with ⟨rfl, rfl⟩ | ⟨rfl, rfl⟩ | ⟨rfl, rfl⟩ | ⟨rfl, rfl⟩ | ⟨rfl, rfl⟩ |
        ⟨rfl, rfl⟩ | ⟨rfl, rfl⟩
      all_goals exact unescape_backslash (by decide) (by decide) (by decide) rest
  | escaped hchar =>
      simp only [List.mem_cons, List.not_mem_nil, or_false, not_or] at hchar
      have hself : simpleEscape? char = none := by
        unfold simpleEscape?
        split <;> simp_all
      have hread : unescape ('\\' :: char :: rest) =
          (simpleEscape? char).getD char :: unescape rest :=
        unescape_backslash (by simp [hchar]) (by simp [hchar]) (by simp [hchar]) rest
      rwa [hself] at hread
  | @code letter _ payload hcode =>
      have hread : codeEscape? (payload ++ rest) 0 letter = some (some (char, payload.length)) :=
        (codeEscape?_eq_some_iff hcode.letter_eq).mpr ⟨payload, rest, rfl, rfl, hcode⟩
      have hrest := unescape_of_codeEscape? hcode.letter_eq hread
      rwa [List.drop_left] at hrest

theorem unescape_append_of_forall₂ {spellings : List (List Char)} {chars : List Char}
    (hspells : List.Forall₂ Spells spellings chars) (rest : List Char) :
    unescape (spellings.flatten ++ rest) = chars ++ unescape rest := by
  induction hspells with
  | nil => rfl
  | cons hspell _ ih =>
      rw [List.flatten_cons, List.append_assoc, unescape_append_of_spells hspell, ih,
        List.cons_append]

/-- However the characters of a text are spelled, a string literal of the spellings stands for the
text. In any text whatsoever no place and no cut is out of range, and where a code point has none
of its forms its backslash and letter stand for themselves and reading goes on right behind them. -/
theorem unescape_readsSpellings :
    (∀ spellings chars, List.Forall₂ Spells spellings chars →
      unescape spellings.flatten = chars) ∧
    (∀ text place, ∃ chars, unescapeFrom? text place = some chars) ∧
    (∀ text start letter, ∃ read, codeEscape? text start letter = some read) ∧
    (∀ (text rest : List Char) place letter, text.drop place = '\\' :: letter :: rest →
      letter = 'x' ∨ letter = 'u' →
      (∀ payload char, WritesCode letter payload char → ¬ payload <+: rest) →
      unescapeFrom? text place =
        (unescapeFrom? text (place + 2)).map (['\\', letter] ++ ·)) := by
  refine ⟨fun spellings chars hspells => ?_, exists_unescapeFrom?, exists_codeEscape?,
    fun text rest place letter hplace hletter hnone => ?_⟩
  · have hread := unescape_append_of_forall₂ hspells []
    rwa [List.append_nil, unescape_nil, List.append_nil] at hread
  · have hrest : text.drop (place + 2) = rest := by
      rw [← List.drop_drop, hplace]
      rfl
    rw [unescapeFrom?_eq, unescapeFrom?_eq, hplace, hrest,
      unescape_of_malformed hletter ((codeEscape?_eq_none_iff hletter).mpr hnone)]
    rfl

/-- A letter by its code in two digits, a face by its code in braces and as a pair, and braces
without digits. -/
theorem unescape_letterAndFaces :
    let spellings := ["\\x41".toList, "\\u\x7b1f600\x7d".toList, "\\uD83D\\uDE00".toList]
    let chars := ['A', '😀', '😀']
    let empty := "\\u\x7b\x7d".toList
    List.Forall₂ Spells spellings chars ∧ unescape spellings.flatten = chars ∧
      (∀ payload char, WritesCode 'u' payload char → ¬ payload <+: "\x7b\x7d".toList) ∧
      unescape empty = empty := by
  intro spellings chars empty
  have hspells : List.Forall₂ Spells spellings chars := by
    have hletter : WritesCode 'x' ['4', '1'] 'A' :=
      .byte ⟨rfl, Numeral.ofDigits?_eq_some_iff.mp (by decide)⟩
    have hbraced : WritesCode 'u' ('\x7b' :: (['1', 'f', '6', '0', '0'] ++ ['\x7d']))
        '😀' :=
      .braced ⟨by decide, by decide⟩ ⟨rfl, Numeral.ofDigits?_eq_some_iff.mp (by decide)⟩
    have hpair : WritesCode 'u' (['D', '8', '3', 'D'] ++ '\\' :: 'u' :: ['D', 'E', '0', '0'])
        '😀' :=
      .pair ⟨rfl, Numeral.ofDigits?_eq_some_iff.mp (by decide : _ = some 0xd83d)⟩
        ⟨rfl, Numeral.ofDigits?_eq_some_iff.mp (by decide : _ = some 0xde00)⟩
        ⟨by decide, by decide⟩ ⟨by decide, by decide⟩ (by decide)
    exact .cons (.code hletter) (.cons (.code hbraced) (.cons (.code hpair) .nil))
  have hnone : ∀ payload char, WritesCode 'u' payload char →
      ¬ payload <+: "\x7b\x7d".toList :=
    (codeEscape?_eq_none_iff (Or.inr rfl)).mp rfl
  refine ⟨hspells, unescape_readsSpellings.1 spellings chars hspells, hnone, ?_⟩
  have hkept := unescape_readsSpellings.2.2.2 empty _ 0 'u' rfl (Or.inr rfl) hnone
  have hrest : unescape ['\x7b', '\x7d'] = ['\x7b', '\x7d'] := by
    rw [unescape_cons_of_ne (by decide), unescape_cons_of_ne (by decide), unescape_nil]
  rw [unescapeFrom?_zero, unescapeFrom?_eq, Option.map_some] at hkept
  exact (Option.some.inj hkept).trans (congrArg (['\\', 'u'] ++ ·) hrest)

end EntityModel.Literal
