import EntityModel.Json.Basic
import EntityModel.Proofs.Number.Numeral
import EntityModel.Syntax.Literal

/-!
# Reading documents

A strict reader of the JSON grammar, and what it reads from the words and strings that documents are
written with. Numerals without a sign, a fraction and an exponent are naturals; all others are
doubles.
-/

namespace EntityModel

open Text

/-! ## The reader -/

namespace Json

/-- The four blanks that may stand between the parts of a document. -/
def isSpace (char : Char) : Bool := [' ', '\t', '\n', '\r'].contains char

def skip (text : List Char) : List Char := text.dropWhile isSpace

/-- Whether a text is a numeral without a sign: no needless zeros in front, and digits on both
sides of the point. -/
def isUnsigned (text : List Char) : Bool :=
  Numeral.isWhole (text.takeWhile isAsciiDigit) &&
    match text.dropWhile isAsciiDigit with
    | '.' :: after => !(after.takeWhile isAsciiDigit).isEmpty &&
        (Numeral.exponent? (after.dropWhile isAsciiDigit)).isSome
    | power => (Numeral.exponent? power).isSome

/-- The number that a numeral stands for. -/
def ofNumeral? (text : List Char) : Option Json :=
  if text.all isAsciiDigit then
    if Numeral.isWhole text then some (.natural (Numeral.ofDecimalDigits text)) else none
  else if isUnsigned (if text.head? = some '-' then text.drop 1 else text) then
    (Numeral.number? text).map .number
  else none

/-- The characters that names of values and numerals consist of. -/
def isWordChar (char : Char) : Bool :=
  isAsciiLower char || isAsciiUpper char || Numeral.isNumeralChar char

def ofWord? (word : List Char) : Option Json :=
  if word = "null".toList then some .null
  else if word = "true".toList then some (.boolean true)
  else if word = "false".toList then some (.boolean false)
  else ofNumeral? word

/-- The characters that one letter behind a backslash stands for. -/
def letterEscapes : List (Char × Char) :=
  [('\x22', '\x22'), ('\\', '\\'), ('/', '/'), ('b', '\x08'), ('f', '\x0c'), ('n', '\n'),
    ('r', '\r'), ('t', '\t')]

/-- The character of what stands behind a backslash, and the number of characters read. -/
def escape? : List Char → Option (Char × Nat)
  | [] => none
  | letter :: text =>
    if letter = 'u' then (Literal.unitEscape? text).map fun (char, count) => (char, count + 1)
    else (letterEscapes.lookup letter).map fun char => (char, 1)

/-- The characters of a string whose opening mark is read, and the text behind its closing one.
Control characters have to be escaped. -/
def stringTail? : List Char → Option (List Char × List Char)
  | [] => none
  | '\x22' :: rest => some ([], rest)
  | '\\' :: text => do
    let (char, count) ← escape? text
    let (chars, rest) ← stringTail? (text.drop count)
    return (char :: chars, rest)
  | char :: text =>
    if char.toNat < 32 then none
    else do
      let (chars, rest) ← stringTail? text
      return (char :: chars, rest)
termination_by text => text.length
decreasing_by all_goals simp only [List.length_cons, List.length_drop]; omega

section

variable {α : Type}

/-- Elements with commas between them up to a closing bracket, and the text behind it. Of a text
with more than `count` elements nothing is read. -/
def elements? (closing : Char) (element? : List Char → Option (α × List Char)) :
    (count : Nat) → List Char → Option (List α × List Char)
  | 0, _ => none
  | count + 1, text => do
    let (element, rest) ← element? text
    match skip rest with
    | [] => none
    | char :: rest =>
      if char = ',' then
        let (others, rest) ← elements? closing element? count (skip rest)
        return (element :: others, rest)
      else if char = closing then some ([element], rest)
      else none

/-- What stands between brackets whose opening one is read: nothing, or elements. -/
def sequence? (closing : Char) (element? : List Char → Option (α × List Char))
    (text : List Char) : Option (List α × List Char) :=
  match skip text with
  | [] => none
  | char :: rest =>
    if char = closing then some ([], rest)
    else elements? closing element? text.length (char :: rest)

end

/-- A member of an object: a string, a colon and a value. -/
def member? (value? : List Char → Option (Json × List Char)) :
    List Char → Option ((String × Json) × List Char)
  | [] => none
  | char :: text =>
    if char = '\x22' then do
      let (name, rest) ← stringTail? text
      match skip rest with
      | [] => none
      | char :: rest =>
        if char = ':' then
          let (value, rest) ← value? (skip rest)
          return ((String.ofList name, value), rest)
        else none
    else none

/-- A value that starts with a character, up to a depth of brackets, and the text behind it. -/
def value? : (depth : Nat) → List Char → Option (Json × List Char)
  | 0, _ => none
  | _ + 1, [] => none
  | depth + 1, char :: text =>
    if char = '\x22' then
      (stringTail? text).map fun (chars, rest) => (.string (String.ofList chars), rest)
    else if char = '[' then
      (sequence? ']' (value? depth) text).map fun (items, rest) => (.array items, rest)
    else if char = '\x7b' then
      (sequence? '\x7d' (member? (value? depth)) text).map fun (members, rest) =>
        (.object members, rest)
    else
      (ofWord? ((char :: text).takeWhile isWordChar)).map fun value =>
        (value, (char :: text).dropWhile isWordChar)

/-- The document that a text is: one value, with blanks around it. -/
def ofText? (text : String) : Option Json :=
  match value? (text.toList.length + 1) (skip text.toList) with
  | some (value, rest) => if (skip rest).isEmpty then some value else none
  | none => none

/-! ## Strings -/

theorem stringTail?_backslash {text : List Char} {char : Char} {count : Nat}
    (hescape : escape? text = some (char, count)) : stringTail? ('\\' :: text) =
      (stringTail? (text.drop count)).map fun (chars, rest) => (char :: chars, rest) := by
  rw [stringTail?, hescape, Option.bind_eq_bind, Option.bind_some]
  dsimp only
  cases stringTail? (text.drop count) <;> rfl

theorem stringTail?_cons {text : List Char} {char : Char} (hmark : char ≠ '\x22')
    (hbackslash : char ≠ '\\') (hcontrol : ¬ char.toNat < 32) : stringTail? (char :: text) =
      (stringTail? text).map fun (chars, rest) => (char :: chars, rest) := by
  rw [stringTail?, if_neg hcontrol]
  · cases stringTail? text <;> rfl
  · exact hmark
  · exact hbackslash

theorem ofDigits?_hexDigit : ∀ code < 32, Numeral.ofDigits? 16
    ['0', '0', hexDigit (code / 16), hexDigit (code % 16)] = some code := by
  decide

/-- A control character is read from its code. -/
theorem escape?_control {char : Char} (hcontrol : char.toNat < 32) (text : List Char) :
    escape? ('u' :: '0' :: '0' :: hexDigit (char.toNat / 16) :: hexDigit (char.toNat % 16) ::
      text) = some (char, 5) := by
  have hhex : Literal.hex? 4 ('0' :: '0' :: hexDigit (char.toNat / 16) ::
      hexDigit (char.toNat % 16) :: text) = some char.toNat := by
    simp only [Literal.hex?, List.take_succ_cons, List.take_zero, List.length_cons,
      List.length_nil, if_true]
    exact ofDigits?_hexDigit char.toNat hcontrol
  have hscalar : Literal.scalar? char.toNat = some char := by
    have hvalid : char.toNat.isValidChar := char.valid
    rw [Literal.scalar?, if_pos hvalid, Char.ofNat_toNat]
  have hlow : ¬ (0xd800 ≤ char.toNat ∧ char.toNat < 0xdc00) := by omega
  simp [escape?, Literal.unitEscape?, hhex, hscalar, hlow]

/-- A character reads back from its escape. -/
theorem stringTail?_escapeChar_append (char : Char) (text : List Char) :
    stringTail? (escapeChar char ++ text) =
      (stringTail? text).map fun (chars, rest) => (char :: chars, rest) := by
  have hletter : ∀ letter, escape? (letter :: text) = some (char, 1) →
      escapeChar char = ['\\', letter] → stringTail? (escapeChar char ++ text) =
        (stringTail? text).map fun (chars, rest) => (char :: chars, rest) := by
    intro letter hescape htext
    rw [htext]
    exact stringTail?_backslash hescape
  by_cases hnamed : char ∈ ['\x22', '\\', '\x08', '\x0c', '\n', '\r', '\t']
  · simp only [List.mem_cons, List.not_mem_nil, or_false] at hnamed
    rcases hnamed with rfl | rfl | rfl | rfl | rfl | rfl | rfl
    · exact hletter '\x22' rfl rfl
    · exact hletter '\\' rfl rfl
    · exact hletter 'b' rfl rfl
    · exact hletter 'f' rfl rfl
    · exact hletter 'n' rfl rfl
    · exact hletter 'r' rfl rfl
    · exact hletter 't' rfl rfl
  · simp only [List.mem_cons, List.not_mem_nil, or_false, not_or] at hnamed
    obtain ⟨hmark, hbackslash, hb, hf, hn, hr, ht⟩ := hnamed
    rw [escapeChar, if_neg hmark, if_neg hbackslash, if_neg hb, if_neg hf, if_neg hn, if_neg hr,
      if_neg ht]
    by_cases hcontrol : char.toNat < 32
    · rw [if_pos hcontrol]
      exact stringTail?_backslash (escape?_control hcontrol text)
    · rw [if_neg hcontrol]
      exact stringTail?_cons hmark hbackslash hcontrol

/-- A string reads back, whatever stands behind it. -/
theorem stringTail?_escaped (chars rest : List Char) :
    stringTail? (chars.flatMap escapeChar ++ '\x22' :: rest) = some (chars, rest) := by
  induction chars with
  | nil => rw [List.flatMap_nil, List.nil_append, stringTail?]
  | cons char chars ih =>
      rw [List.flatMap_cons, List.append_assoc, stringTail?_escapeChar_append, ih]
      rfl

/-! ## Words -/

/-- Whether a word ends where a text starts. -/
def EndsWord (rest : List Char) : Prop := ∀ char ∈ rest.head?, isWordChar char = false

theorem span_word {word rest : List Char} (hword : ∀ char ∈ word, isWordChar char = true)
    (hends : EndsWord rest) : (word ++ rest).takeWhile isWordChar = word ∧
      (word ++ rest).dropWhile isWordChar = rest := by
  rw [List.takeWhile_append_of_pos hword, List.dropWhile_append_of_pos hword]
  cases rest with
  | nil => simp
  | cons char rest =>
      have hchar := hends char rfl
      simp [hchar]

theorem value?_word {word rest : List Char} {document : Json}
    (hword : ∀ char ∈ word, isWordChar char = true) (hends : EndsWord rest)
    (hread : ofWord? word = some document) (depth : Nat) :
    value? (depth + 1) (word ++ rest) = some (document, rest) := by
  cases word with
  | nil => cases hread
  | cons char word =>
      have hchar : isWordChar char = true := hword char List.mem_cons_self
      have hplain : ∀ other, isWordChar other = false → char ≠ other := by
        rintro other hother rfl
        rw [hchar] at hother
        cases hother
      obtain ⟨htake, hdrop⟩ := span_word hword hends
      rw [List.cons_append] at htake hdrop ⊢
      rw [value?, if_neg (hplain _ rfl), if_neg (hplain _ rfl), if_neg (hplain _ rfl), htake,
        hdrop, hread, Option.map_some]

/-- The named values are no numerals. -/
theorem ofWord?_of_numeral {word : List Char}
    (hnumeral : ∀ char ∈ word, Numeral.isNumeralChar char = true) :
    ofWord? word = ofNumeral? word := by
  rw [ofWord?, if_neg, if_neg, if_neg]
  all_goals
    rintro rfl
    exact absurd (List.all_eq_true.mpr hnumeral) (by decide)

/-- The digits of a natural are a numeral. -/
theorem ofNumeral?_toDigits (value : Nat) :
    ofNumeral? (Nat.toDigits 10 value) = some (.natural value) := by
  have hdigits : (Nat.toDigits 10 value).all isAsciiDigit = true :=
    List.all_eq_true.mpr fun _ => Numeral.isAsciiDigit_of_mem_toDigits
  have hwhole : Numeral.isWhole (Nat.toDigits 10 value ++ List.replicate 0 '0') = true :=
    Numeral.isWhole_toDigits_append fun _ => rfl
  rw [List.replicate_zero, List.append_nil] at hwhole
  rw [ofNumeral?, if_pos hdigits, if_pos hwhole, Numeral.ofDecimalDigits_toDigits]

section

variable {parts : Numeral.Parts}

theorem isUnsigned_text : isUnsigned parts.text = true := by
  rw [isUnsigned, parts.span_text.1, parts.span_text.2, parts.isWhole_whole, Bool.true_and]
  have hpower : (Numeral.exponent? parts.power).isSome = true := by
    rw [parts.exponent?_power]
    rfl
  by_cases hnone : parts.fraction = []
  · rw [if_pos hnone, List.nil_append]
    rcases parts.power_eq_nil_or_cons with hnil | ⟨char, rest, hcons, _, hpoint⟩
    · rw [hnil]
      rfl
    · rw [hcons] at hpower ⊢
      split
      next heq => exact absurd (List.cons.inj heq).1 hpoint
      next => exact hpower
  · simp [hnone, hpower, parts.span_fraction_power]

/-- A point or an exponent is not made of digits. -/
theorem all_isAsciiDigit_text (hmarked : parts.fraction ≠ [] ∨ parts.power ≠ []) :
    parts.text.all isAsciiDigit = false := by
  rw [List.all_eq_false]
  by_cases hnone : parts.fraction = []
  · obtain hnil | ⟨char, rest, hcons, hchar, _⟩ := parts.power_eq_nil_or_cons
    · exact absurd hnil (hmarked.resolve_left fun hsome => hsome hnone)
    · exact ⟨char, by simp [Numeral.Parts.text, hcons], by simp [hchar]⟩
  · exact ⟨'.', by simp [Numeral.Parts.text, hnone], by decide⟩

theorem head?_text_ne (parts : Numeral.Parts) : parts.text.head? ≠ some '-' := by
  obtain ⟨char, rest, hcons⟩ := List.exists_cons_of_ne_nil parts.whole_ne_nil
  have hdigit := parts.isDigit_whole char (by simp [hcons])
  rw [Numeral.Parts.text, hcons, List.cons_append, List.head?_cons]
  intro heq
  rw [Option.some.inj heq] at hdigit
  cases hdigit

/-- A numeral with a point or an exponent, and maybe with a sign, is a double. -/
theorem ofNumeral?_text (hmarked : parts.fraction ≠ [] ∨ parts.power ≠ []) (negative : Bool) :
    ofNumeral? ((if negative then ['-'] else []) ++ parts.text) =
      some (.number (parts.decimal.toNumber negative)) := by
  have hall : ((if negative then ['-'] else []) ++ parts.text).all isAsciiDigit = false := by
    rw [List.all_append, all_isAsciiDigit_text hmarked, Bool.and_false]
  have hunsigned : isUnsigned
      (if ((if negative then ['-'] else []) ++ parts.text).head? = some '-' then
        ((if negative then ['-'] else []) ++ parts.text).drop 1
      else (if negative then ['-'] else []) ++ parts.text) = true := by
    cases negative with
    | true => exact isUnsigned_text
    | false =>
        rw [if_neg Bool.false_ne_true, List.nil_append, if_neg (head?_text_ne parts)]
        exact isUnsigned_text
  rw [ofNumeral?, hall, if_neg Bool.false_ne_true, if_pos hunsigned, parts.number?_text,
    Option.map_some]

end

end Json

end EntityModel
