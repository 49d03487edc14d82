import EntityModel.Number.Decimal
import EntityModel.Text.Case

/-!
# Numbers as text

Numerals are read by one grammar and written in a style: where the point may stand, whether an
integer keeps a fraction, how exponents and non-finite values are spelled.
-/

namespace EntityModel

structure NumberStyle where
  /-- Which of two equally near shortest decimals is written. -/
  tie : Tie
  /-- Whether a value is written without an exponent, by the place of its decimal point. -/
  positional : Int → Bool
  /-- Whether an integer without an exponent is written with the fraction `.0`. -/
  fraction : Bool
  nan : String
  /-- The spelling of the infinite values, by sign. -/
  infinite : Bool → String

namespace NumberStyle

/-- Never an exponent, and integers without a fraction. -/
def plain : NumberStyle where
  tie := .up
  positional _ := true
  fraction := false
  nan := "NaN"
  infinite negative := if negative then "-inf" else "inf"

/-- The digits of a decimal with the point put in place. -/
def positionalText (style : NumberStyle) (decimal : Decimal) : List Char :=
  let digits := Nat.toDigits 10 decimal.digits
  if 0 ≤ decimal.exponent then
    digits ++ List.replicate decimal.exponent.toNat '0' ++
      (if style.fraction then ['.', '0'] else [])
  else
    let places := (-decimal.exponent).toNat
    if digits.length ≤ places then
      '0' :: '.' :: List.replicate (places - digits.length) '0' ++ digits
    else
      digits.take (digits.length - places) ++ '.' :: digits.drop (digits.length - places)

/-- The digits of a decimal with a point after the first one and a signed exponent of ten. -/
def exponentText (decimal : Decimal) : List Char :=
  let digits := Nat.toDigits 10 decimal.digits
  let mantissa := digits.take 1 ++ if digits.length ≤ 1 then [] else '.' :: digits.drop 1
  let exponent := decimal.exponent + (digits.length - 1 : Nat)
  mantissa ++ 'e' :: (if exponent < 0 then '-' else '+') :: Nat.toDigits 10 exponent.natAbs

/-- A magnitude written by its shortest decimal. -/
def magnitudeText (style : NumberStyle) (magnitude : Magnitude) : List Char :=
  if magnitude.rank = 0 then style.positionalText ⟨0, 0⟩
  else
    let decimal := magnitude.shortest style.tie
    if style.positional (Decimal.width decimal.digits + decimal.exponent) then
      style.positionalText decimal
    else exponentText decimal

def text (style : NumberStyle) : Number → String
  | .finite negative magnitude =>
    String.ofList ((if negative then ['-'] else []) ++ style.magnitudeText magnitude)
  | .infinite negative => style.infinite negative
  | .nan => style.nan

end NumberStyle

namespace Numeral

open Text

def digitValue? (char : Char) : Option Nat :=
  if isAsciiDigit char then some (char.toNat - 48)
  else if 'a' ≤ char && char ≤ 'f' then some (char.toNat - 87)
  else if 'A' ≤ char && char ≤ 'F' then some (char.toNat - 55)
  else none

/-- The value of a non-empty text of digits in a base; no other character may stand in it. -/
def ofDigits? (base : Nat) : List Char → Option Nat
  | [] => none
  | digits => digits.foldlM (fun value char => do
      let digit ← digitValue? char
      if digit < base then some (value * base + digit) else none) 0

/-- The value of a text of decimal digits, zero for the empty text. -/
def ofDecimalDigits (digits : List Char) : Nat :=
  digits.foldl (fun value char => value * 10 + (char.toNat - 48)) 0

/-- The exponent written after a mantissa: absent, or `e` with an optional sign and digits. -/
def exponent? : List Char → Option Int
  | [] => some 0
  | char :: rest =>
    if char = 'e' || char = 'E' then
      match rest with
      | '-' :: digits => (ofDigits? 10 digits).map fun value => -(value : Int)
      | '+' :: digits => (ofDigits? 10 digits).map fun value => (value : Int)
      | digits => (ofDigits? 10 digits).map fun value => (value : Int)
    else none

/-- The decimal that a numeral writes: digits with an optional point among, before or after them,
then an optional exponent. -/
def decimal? (text : List Char) : Option Decimal :=
  let whole := text.takeWhile isAsciiDigit
  let rest := text.dropWhile isAsciiDigit
  let (fraction, tail) := match rest with
    | '.' :: after => (after.takeWhile isAsciiDigit, after.dropWhile isAsciiDigit)
    | _ => ([], rest)
  if whole.isEmpty && fraction.isEmpty then none
  else (exponent? tail).map fun exponent =>
    ⟨ofDecimalDigits (whole ++ fraction), exponent - fraction.length⟩

/-- The number that a decimal numeral writes, with an optional sign in front. -/
def number? : List Char → Option Number
  | '-' :: text => (decimal? text).map (·.toNumber true)
  | '+' :: text => (decimal? text).map (·.toNumber false)
  | text => (decimal? text).map (·.toNumber false)

end Numeral

end EntityModel
