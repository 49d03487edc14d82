import EntityModel.Number.Basic

/-!
# Decimals

Reading a decimal as the nearest double, and the shortest decimal that reads back as a given
magnitude.
-/

namespace EntityModel

/-- The value `digits * 10 ^ exponent`. -/
structure Decimal where
  digits : Nat
  exponent : Int
deriving DecidableEq

/-- Which of two equally near decimals stands for a magnitude. -/
inductive Tie where
  /-- The larger one. -/
  | up
  /-- The one with an even last digit. -/
  | even

namespace Decimal

/-- The number of decimal digits of a natural number; zero has one. -/
def width (value : Nat) : Nat := (Nat.toDigits 10 value).length

/-- The double nearest to a decimal. Beyond `10 ^ 310` and below `10 ^ (-330)` the answer does not
depend on the digits. -/
def toNumber (negative : Bool) (decimal : Decimal) : Number :=
  if decimal.digits = 0 then .finite negative .zero
  else
    let point := (width decimal.digits : Int) + decimal.exponent
    if point > 310 then .infinite negative
    else if point < -330 then .finite negative .zero
    else if 0 ≤ decimal.exponent then
      .ofRatio negative (decimal.digits * Nat.pow 10 decimal.exponent.toNat) 1
    else .ofRatio negative decimal.digits (Nat.pow 10 (-decimal.exponent).toNat)

/-- Whether a decimal reads back as a magnitude. -/
def Denotes (decimal : Decimal) (magnitude : Magnitude) : Prop :=
  decimal.toNumber false = .finite false magnitude

instance (decimal : Decimal) (magnitude : Magnitude) : Decidable (decimal.Denotes magnitude) :=
  inferInstanceAs (Decidable (_ = _))

/-- The same value without trailing zeros among its digits; zero has exponent zero. -/
def normalize (decimal : Decimal) : Decimal :=
  if decimal.digits = 0 then ⟨0, 0⟩
  else
    let zeros := ((Nat.toDigits 10 decimal.digits).reverse.takeWhile (· == '0')).length
    ⟨decimal.digits / Nat.pow 10 zeros, decimal.exponent + zeros⟩

end Decimal

namespace Magnitude

/-- The place of the decimal point relative to the first significant digit: the value is less than
`10 ^ point` and, unless it is zero, at least `10 ^ (point - 1)`. -/
def point (magnitude : Magnitude) : Int :=
  (Decimal.width (magnitude.scaled * Nat.pow 10 400 / Nat.pow 2 1074) : Int) - 400

/-- The value divided by `10 ^ exponent`, as a numerator and a denominator. -/
def ratioTo (magnitude : Magnitude) (exponent : Int) : Nat × Nat :=
  if 0 ≤ exponent then (magnitude.scaled, Nat.pow 2 1074 * Nat.pow 10 exponent.toNat)
  else (magnitude.scaled * Nat.pow 10 (-exponent).toNat, Nat.pow 2 1074)

/-- Of two decimals, the one that reads back; if both do, the preferred one. -/
def choose? (magnitude : Magnitude) (below above : Decimal) (preferBelow : Bool) :
    Option Decimal :=
  if below.Denotes magnitude then
    if above.Denotes magnitude && !preferBelow then some above else some below
  else if above.Denotes magnitude then some above
  else none

/-- Of the two neighbours with `count` digits, the one that reads back; if both do, the nearer. -/
def withDigits? (magnitude : Magnitude) (tie : Tie) (count : Nat) : Option Decimal :=
  let exponent := magnitude.point - count
  let ratio := magnitude.ratioTo exponent
  let below : Decimal := ⟨ratio.1 / ratio.2, exponent⟩
  let above : Decimal := ⟨ratio.1 / ratio.2 + 1, exponent⟩
  let twice := 2 * (ratio.1 % ratio.2)
  let preferBelow := twice < ratio.2 ||
    (twice == ratio.2 && match tie with
      | .up => false
      | .even => below.digits % 2 == 0)
  magnitude.choose? below above preferBelow

def exact (magnitude : Magnitude) : Decimal :=
  ⟨magnitude.scaled * Nat.pow 5 1074, -1074⟩

/-- The first decimal with at most the given number of digits that reads back, tried in the order
of their counts; failing that, the exact one. -/
def firstDecimal (magnitude : Magnitude) (tie : Tie) (counts : List Nat) : Decimal :=
  (counts.findSome? (magnitude.withDigits? tie)).getD magnitude.exact

/-- The decimal with the fewest digits that reads back as the magnitude, and of those the nearest.
Seventeen digits are always enough. -/
def shortest (magnitude : Magnitude) (tie : Tie) : Decimal :=
  (magnitude.firstDecimal tie (List.range' 1 17)).normalize

end Magnitude

end EntityModel
