import EntityModel.Text.Blank
import EntityModel.Text.Case

/-!
# Characters and lexemes

Which characters separate tokens, which ones make up words, and how long the word, number, string
or regular expression at the head of a text is.
-/

namespace EntityModel.Syntax

open Text

/-- Characters that may stand between any two tokens. -/
def isSpace (char : Char) : Bool :=
  isBlank char || char.toNat == 0xfeff || char.toNat == 0x2060 || char.toNat == 0x200b

/-- The ends of lines at which a line comment stops. -/
def isLineEnd (char : Char) : Bool :=
  char == '\n' || char == '\r' || char.toNat == 0x2028 || char.toNat == 0x2029

/-- The ASCII characters that are no part of a word. -/
def isPunctuation (char : Char) : Bool :=
  ":;\x60\"'@#.,|^&<=>+-*/\\%?!~()[]\x7b\x7d".toList.contains char

/-- Characters of a word. -/
def isWordChar (char : Char) : Bool :=
  31 < char.toNat && !isSpace char && !isPunctuation char

def isHexDigit (char : Char) : Bool :=
  isAsciiDigit char || ('a' ≤ char && char ≤ 'f') || ('A' ≤ char && char ≤ 'F')

def isOctalDigit (char : Char) : Bool :=
  '0' ≤ char && char ≤ '7'

/-- The length of a code point escape behind its backslash and `u`: four digits, or any digits in
braces. -/
def codePointLength? : List Char → Option Nat
  | '\x7b' :: text =>
    let digits := text.takeWhile isHexDigit
    if digits.isEmpty then none
    else if (text.dropWhile isHexDigit).head? = some '\x7d' then some (digits.length + 2)
    else none
  | text => if (text.take 4).length = 4 && (text.take 4).all isHexDigit then some 4 else none

/-- The length of an escape behind its backslash, if it is well formed. -/
def escapeLength? : List Char → Option Nat
  | [] => none
  | 'x' :: text =>
    if (text.take 2).length = 2 && (text.take 2).all isHexDigit then some 3 else none
  | 'u' :: text => (codePointLength? text).map (· + 1)
  | char :: text =>
    if isOctalDigit char then some (((char :: text).take 3).takeWhile isOctalDigit).length
    else if char = '\r' || char = '?' then
      match text with
      | next :: _ =>
        if next = '\n' || next.toNat = 0x2028 || next.toNat = 0x2029 then some 2 else some 1
      | [] => some 1
    else some 1

/-- The length of the characters that continue a word, code point escapes included. -/
def wordTailLength : List Char → Nat
  | [] => 0
  | '\\' :: 'u' :: text =>
    match codePointLength? text with
    | some count => count + 2 + wordTailLength (text.drop count)
    | none => 0
  | char :: text => if isWordChar char then 1 + wordTailLength text else 0
termination_by text => text.length
decreasing_by all_goals simp only [List.length_cons, List.length_drop]; omega

/-- The length of the word at the head of a text, zero if there is none. Words do not start with a
digit. -/
def wordLength (text : List Char) : Nat :=
  match text with
  | [] => 0
  | char :: _ => if isAsciiDigit char then 0 else wordTailLength text

/-- The length of the digits that continue a run, single underscores between them. -/
def digitTailLength (digit : Char → Bool) : List Char → Nat
  | '_' :: char :: text => if digit char then 2 + digitTailLength digit text else 0
  | char :: text => if digit char then 1 + digitTailLength digit text else 0
  | [] => 0

/-- The length of a run of digits with single underscores between them. -/
def digitsLength (digit : Char → Bool) : List Char → Nat
  | char :: text => if digit char then 1 + digitTailLength digit text else 0
  | [] => 0

/-- The length of an exponent, zero if there is none. -/
def exponentLength : List Char → Nat
  | letter :: text =>
    if letter = 'e' || letter = 'E' then
      let sign := match text with
        | '+' :: _ => 1
        | '-' :: _ => 1
        | _ => 0
      match digitsLength isAsciiDigit (text.drop sign) with
      | 0 => 0
      | count => 1 + sign + count
    else 0
  | [] => 0

/-- The length of an integer that a fraction or an exponent may follow: a zero, or digits that
start with at most one zero. -/
def integerLength : List Char → Nat
  | '0' :: text =>
    match text with
    | next :: _ =>
      if isAsciiDigit next && next != '0' then 1 + digitsLength isAsciiDigit text else 1
    | [] => 1
  | text => digitsLength isAsciiDigit text

/-- The length of digits behind a base mark, with the suffix of a big integer. -/
def radixLength (digit : Char → Bool) (text : List Char) : Nat :=
  match digitsLength digit text with
  | 0 => 0
  | count => if (text.drop count).head? = some 'n' then count + 3 else count + 2

def decimalLength (text : List Char) : Nat :=
  let digits := digitsLength isAsciiDigit text
  let plain := if digits ≠ 0 && (text.drop digits).head? = some 'n' then digits + 1 else digits
  let integer := integerLength text
  let rest := text.drop integer
  let scaled := match rest with
    | '.' :: after =>
      let fraction := digitsLength isAsciiDigit after
      if integer = 0 && fraction = 0 then 0
      else integer + 1 + fraction + exponentLength (after.drop fraction)
    | _ =>
      match integer, exponentLength rest with
      | 0, _ => 0
      | _, 0 => 0
      | _, count => integer + count
  max plain scaled

/-- The length of the number at the head of a text, zero if there is none. -/
def numberLength (text : List Char) : Nat :=
  match text with
  | '0' :: letter :: digits =>
    let radix :=
      if letter = 'x' || letter = 'X' then radixLength isHexDigit digits
      else if letter = 'o' || letter = 'O' then radixLength isOctalDigit digits
      else if letter = 'b' || letter = 'B' then radixLength (fun c => c == '0' || c == '1') digits
      else 0
    if radix = 0 then decimalLength text else radix
  | _ => decimalLength text

/-- The length of a string literal behind its opening quotation mark, the closing one included. It
holds no bare line end and only well-formed escapes. -/
def stringLength? (quote : Char) : List Char → Option Nat
  | [] => none
  | char :: text =>
    if char = quote then some 1
    else if char = '\n' || char = '\r' then none
    else if char = '\\' then do
      let count ← escapeLength? text
      let length ← stringLength? quote (text.drop count)
      return count + 1 + length
    else (stringLength? quote text).map (· + 1)
termination_by text => text.length
decreasing_by all_goals simp only [List.length_cons, List.length_drop]; omega

/-- The length of a regular expression behind its opening slash, up to the closing one. A slash
between brackets does not close it. -/
def regexLength? : (inBrackets : Bool) → List Char → Option Nat
  | _, [] => none
  | _, ['\\'] => none
  | inBrackets, '\\' :: next :: text =>
    if next = '\n' then none else (regexLength? inBrackets text).map (· + 2)
  | inBrackets, char :: text =>
    if char = '\n' then none
    else if inBrackets then (regexLength? (char != ']') text).map (· + 1)
    else if char = '/' then some 1
    else (regexLength? (char == '[') text).map (· + 1)

end EntityModel.Syntax
