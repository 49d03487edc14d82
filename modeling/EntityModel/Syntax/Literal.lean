import EntityModel.Number.Text

/-!
# Literals

What the text of a literal stands for: the characters of a string after its escapes, and the value
of a number in any of its spellings.
-/

namespace EntityModel.Literal

open Text

/-- The text between two equal quotation marks; any other text is itself. -/
def unquote (text : List Char) : List Char :=
  match text with
  | [] => []
  | opening :: rest =>
    if rest.getLast? = some opening &&
        (opening = '\x22' || opening = '\x27' || opening = '\x60') then
      rest.dropLast
    else text

/-- The value of the first `count` characters as hexadecimal digits. -/
def hex? (count : Nat) (text : List Char) : Option Nat :=
  if (text.take count).length = count then Numeral.ofDigits? 16 (text.take count) else none

/-- The character with a code point; surrogates and numbers past U+10FFFF have none. -/
def scalar? (code : Nat) : Option Char :=
  if code.isValidChar then some (Char.ofNat code) else none

/-- The character of `HH` behind a backslash and `x`, and the number of characters read. -/
def byteEscape? (text : List Char) : Option (Char × Nat) := do
  let code ← hex? 2 text
  return (← scalar? code, 2)

/-- The character of a code point in braces, one to six digits. -/
def bracedEscape? (text : List Char) : Option (Char × Nat) := do
  let digits := text.takeWhile (· ≠ '\x7d')
  guard (digits.length < text.length && 1 ≤ digits.length && digits.length ≤ 6)
  let code ← Numeral.ofDigits? 16 digits
  return (← scalar? code, digits.length + 1)

/-- The low half of a surrogate pair, written as a second escape. -/
def lowSurrogate? : List Char → Option Nat
  | '\\' :: 'u' :: text => do
    let unit ← hex? 4 text
    guard (0xdc00 ≤ unit && unit < 0xe000)
    return unit
  | _ => none

/-- The character of `HHHH` behind a backslash and `u`. Two such escapes that write a surrogate
pair stand for one character. -/
def unitEscape? (text : List Char) : Option (Char × Nat) := do
  let unit ← hex? 4 text
  if 0xd800 ≤ unit && unit < 0xdc00 then
    let low ← lowSurrogate? (text.drop 4)
    return (← scalar? (0x10000 + (unit - 0xd800) * 0x400 + (low - 0xdc00)), 10)
  else return (← scalar? unit, 4)

/-- The text from a place on. The place may not lie behind the end. -/
def from? (text : List Char) (place : Nat) : Option (List Char) :=
  if place ≤ text.length then some (text.drop place) else none

/-- The character written by what stands from `start` on behind a backslash and `letter`, an `x` or
`u`, and the place behind that. A malformed code point writes none. -/
def codeEscape? (text : List Char) (start : Nat) (letter : Char) :
    Option (Option (Char × Nat)) :=
  if letter = 'x' then
    some ((byteEscape? (text.drop start)).map fun (char, count) => (char, start + count))
  else if text[start]? = some '\x7b' then
    (from? text (start + 1)).map fun digits =>
      (bracedEscape? digits).map fun (char, count) => (char, start + 1 + count)
  else some ((unitEscape? (text.drop start)).map fun (char, count) => (char, start + count))

/-- The character that a one-letter escape stands for. -/
def simpleEscape? : Char → Option Char
  | 'n' => some '\n'
  | 't' => some '\t'
  | 'r' => some '\r'
  | 'b' => some '\x08'
  | 'f' => some '\x0c'
  | 'v' => some '\x0b'
  | '0' => some '\x00'
  | _ => none

/-- What a backslash and the letter behind it stand for, and the place where reading goes on. A
backslash before a line feed vanishes with it, a malformed code point is kept as written, and a
backslash before any other character stands for that character. -/
def escape? (text : List Char) (start : Nat) (letter : Char) : Option (List Char × Nat) :=
  if letter = 'x' ∨ letter = 'u' then
    (codeEscape? text start letter).map fun
      | some (char, next) => ([char], next)
      | none => (['\\', letter], start)
  else if letter = '\n' then some ([], start)
  else some ([(simpleEscape? letter).getD letter], start)

/-- What the element at a place of a string literal stands for, and the place where reading goes
on. The place has to be in the text. -/
def element? (text : List Char) (place : Nat) : Option (List Char × Nat) :=
  match text[place]?, text[place + 1]? with
  | none, _ => none
  | some '\\', none => some (['\\'], place + 1)
  | some '\\', some letter => escape? text (place + 2) letter
  | some char, _ => some ([char], place + 1)

theorem pos_of_byteEscape? {text : List Char} {char : Char} {count : Nat}
    (hread : byteEscape? text = some (char, count)) : 0 < count := by
  obtain ⟨_, _, hread⟩ := Option.bind_eq_some_iff.mp hread
  obtain ⟨_, _, hread⟩ := Option.bind_eq_some_iff.mp hread
  cases hread
  decide

theorem pos_of_unitEscape? {text : List Char} {char : Char} {count : Nat}
    (hread : unitEscape? text = some (char, count)) : 0 < count := by
  obtain ⟨unit, _, hread⟩ := Option.bind_eq_some_iff.mp hread
  split at hread
  · obtain ⟨_, _, hread⟩ := Option.bind_eq_some_iff.mp hread
    obtain ⟨_, _, hread⟩ := Option.bind_eq_some_iff.mp hread
    cases hread
    decide
  · obtain ⟨_, _, hread⟩ := Option.bind_eq_some_iff.mp hread
    cases hread
    decide

theorem lt_of_codeEscape? {text : List Char} {start : Nat} {letter char : Char} {next : Nat}
    (hcode : codeEscape? text start letter = some (some (char, next))) : start < next := by
  unfold codeEscape? at hcode
  split at hcode
  · simp only [Option.some.injEq, Option.map_eq_some_iff, Prod.mk.injEq] at hcode
    obtain ⟨⟨_, count⟩, hread, rfl, rfl⟩ := hcode
    exact Nat.lt_add_of_pos_right (pos_of_byteEscape? hread)
  split at hcode
  · simp only [Option.map_eq_some_iff, Prod.mk.injEq] at hcode
    obtain ⟨_, _, ⟨_, count⟩, hread, rfl, rfl⟩ := hcode
    omega
  · simp only [Option.some.injEq, Option.map_eq_some_iff, Prod.mk.injEq] at hcode
    obtain ⟨⟨_, count⟩, hread, rfl, rfl⟩ := hcode
    exact Nat.lt_add_of_pos_right (pos_of_unitEscape? hread)

theorem le_of_escape? {text : List Char} {start : Nat} {letter : Char} {written : List Char}
    {next : Nat} (hescape : escape? text start letter = some (written, next)) : start ≤ next := by
  unfold escape? at hescape
  split at hescape
  · obtain ⟨code, hcode, heq⟩ := Option.map_eq_some_iff.mp hescape
    cases code with
    | none => cases heq; exact Nat.le_refl _
    | some read => cases heq; exact Nat.le_of_lt (lt_of_codeEscape? hcode)
  · split at hescape <;> cases hescape <;> exact Nat.le_refl _

theorem lt_of_element? {text : List Char} {place : Nat} {written : List Char} {next : Nat}
    (helement : element? text place = some (written, next)) : place < next := by
  unfold element? at helement
  split at helement
  · cases helement
  · cases helement
    exact Nat.lt_succ_self _
  · have hle := le_of_escape? helement
    omega
  · cases helement
    exact Nat.lt_succ_self _

/-- The characters that the inside of a string literal stands for, from a place on. -/
def unescapeFrom? (text : List Char) (place : Nat) : Option (List Char) :=
  if place < text.length then
    match helement : element? text place with
    | none => none
    | some (written, next) =>
      have := lt_of_element? helement
      (unescapeFrom? text next).map (written ++ ·)
  else some []
termination_by text.length - place

theorem unescapeFrom?_of_element? {text : List Char} {place : Nat} {written : List Char}
    {next : Nat} (hplace : place < text.length)
    (helement : element? text place = some (written, next)) :
    unescapeFrom? text place = (unescapeFrom? text next).map (written ++ ·) := by
  rw [unescapeFrom?, if_pos hplace]
  split
  next hnone => rw [helement] at hnone; cases hnone
  next hsome => rw [helement] at hsome; cases hsome; rfl

/-- A text is cut only behind a brace that stands in it. -/
theorem exists_codeEscape? (text : List Char) (start : Nat) (letter : Char) :
    ∃ read, codeEscape? text start letter = some read := by
  unfold codeEscape?
  split
  · exact ⟨_, rfl⟩
  split
  next hbrace =>
    obtain ⟨hlt, _⟩ := List.getElem?_eq_some_iff.mp hbrace
    have hfrom : from? text (start + 1) = some (text.drop (start + 1)) := if_pos hlt
    exact ⟨_, by rw [hfrom, Option.map_some]⟩
  next => exact ⟨_, rfl⟩

theorem exists_escape? (text : List Char) (start : Nat) (letter : Char) :
    ∃ written next, escape? text start letter = some (written, next) := by
  obtain ⟨read, hread⟩ := exists_codeEscape? text start letter
  unfold escape?
  rw [hread]
  split
  · cases read <;> exact ⟨_, _, rfl⟩
  · split <;> exact ⟨_, _, rfl⟩

/-- No element in a text fails. -/
theorem exists_element? {text : List Char} {place : Nat} (hplace : place < text.length) :
    ∃ written next, element? text place = some (written, next) := by
  unfold element?
  split
  next hnone => simp [hplace] at hnone
  next => exact ⟨_, _, rfl⟩
  next => exact exists_escape? text _ _
  next => exact ⟨_, _, rfl⟩

/-- Reading fails at no place. -/
theorem exists_unescapeFrom? (text : List Char) (place : Nat) :
    ∃ chars, unescapeFrom? text place = some chars := by
  induction place using unescapeFrom?.induct text with
  | case1 place hplace hnone =>
      obtain ⟨written, next, helement⟩ := exists_element? hplace
      rw [helement] at hnone
      cases hnone
  | case2 place hplace written next helement _ ih =>
      obtain ⟨chars, hchars⟩ := ih
      exact ⟨written ++ chars, by
        rw [unescapeFrom?_of_element? hplace helement, hchars, Option.map_some]⟩
  | case3 place hplace => exact ⟨[], by rw [unescapeFrom?, if_neg hplace]⟩

/-- The characters that the inside of a string literal stands for. -/
def unescape (text : List Char) : List Char :=
  (unescapeFrom? text 0).get (by
    obtain ⟨_, hchars⟩ := exists_unescapeFrom? text 0
    simp [hchars])

def stringValue (text : List Char) : String := String.ofList (unescape (unquote text))

/-- The text of a number without separators and without the suffix of a big integer, in lower
case. -/
def plainNumeral (text : List Char) : List Char :=
  (((text.filter (· ≠ '_')).reverse.dropWhile (· = 'n')).reverse).map asciiLower

/-- The value of digits in a base, as far as a signed 64-bit integer can hold it. -/
def radixValue? (base : Nat) (digits : List Char) : Option Number := do
  let value ← Numeral.ofDigits? base digits
  guard (value < Nat.pow 2 63)
  return Number.ofNat value

def numberValue? (text : List Char) : Option Number :=
  match plainNumeral text with
  | '0' :: 'x' :: digits => radixValue? 16 digits
  | '0' :: 'o' :: digits => radixValue? 8 digits
  | '0' :: 'b' :: digits => radixValue? 2 digits
  | numeral => (Numeral.decimal? numeral).map (·.toNumber false)

end EntityModel.Literal
