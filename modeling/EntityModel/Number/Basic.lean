/-!
# Double-precision numbers

A finite magnitude is known by its rank among all finite magnitudes, so that every value has one
representation. Exact ratios round to the nearest magnitude, halves to the even one.
-/

namespace EntityModel

/-- A finite non-negative double: the `rank`-th of them, counted from zero. -/
structure Magnitude where
  rank : Nat
  rank_lt : rank < 2047 * Nat.pow 2 52
deriving DecidableEq

namespace Magnitude

def zero : Magnitude := ⟨0, by decide⟩

/-- The integer that the unit is multiplied by, below `2 ^ 53`. -/
def significand (magnitude : Magnitude) : Nat :=
  if magnitude.rank < Nat.pow 2 53 then magnitude.rank
  else magnitude.rank % Nat.pow 2 52 + Nat.pow 2 52

/-- The unit is `2 ^ exponent` times the least positive magnitude `2 ^ (-1074)`. -/
def exponent (magnitude : Magnitude) : Nat :=
  if magnitude.rank < Nat.pow 2 53 then 0 else magnitude.rank / Nat.pow 2 52 - 1

/-- The value, as a multiple of the least positive magnitude `2 ^ (-1074)`. -/
def scaled (magnitude : Magnitude) : Nat :=
  magnitude.significand * Nat.pow 2 magnitude.exponent

theorem significand_lt (magnitude : Magnitude) : magnitude.significand < Nat.pow 2 53 := by
  unfold significand
  simp only [Nat.pow_eq]
  split <;> omega

end Magnitude

/-- The integer nearest to a ratio, a half going to the even neighbour. -/
def roundHalfEven (numerator denominator : Nat) : Nat :=
  let quotient := numerator / denominator
  let twice := 2 * (numerator % denominator)
  if twice < denominator then quotient
  else if denominator < twice then quotient + 1
  else if quotient % 2 = 0 then quotient
  else quotient + 1

/-- The rank of the magnitude nearest to a ratio, as if there were no largest magnitude. -/
def nearestRank (numerator denominator : Nat) : Nat :=
  let scaled := numerator * Nat.pow 2 1074
  let exponent := Nat.log2 (scaled / denominator) - 52
  exponent * Nat.pow 2 52 + roundHalfEven scaled (denominator * Nat.pow 2 exponent)

inductive Number where
  | finite (negative : Bool) (magnitude : Magnitude)
  | infinite (negative : Bool)
  | nan
deriving DecidableEq

namespace Number

/-- The double nearest to a ratio; one past the largest magnitude is infinite. -/
def ofRatio (negative : Bool) (numerator denominator : Nat) : Number :=
  let rank := nearestRank numerator denominator
  if hrank : rank < 2047 * Nat.pow 2 52 then .finite negative ⟨rank, hrank⟩
  else .infinite negative

/-- The double nearest to a natural number. -/
def ofNat (value : Nat) : Number := ofRatio false value 1

/-- The number with the opposite sign; zero has two signs. -/
def neg : Number → Number
  | .finite negative magnitude => .finite (!negative) magnitude
  | .infinite negative => .infinite (!negative)
  | .nan => .nan

instance : Neg Number := ⟨neg⟩

def isFinite : Number → Bool
  | .finite _ _ => true
  | _ => false

/-- The natural number that a number equals, if it equals one; both zeros do. -/
def toNat? : Number → Option Nat
  | .finite negative magnitude =>
    if magnitude.scaled % Nat.pow 2 1074 ≠ 0 then none
    else if negative && magnitude.scaled ≠ 0 then none
    else some (magnitude.scaled / Nat.pow 2 1074)
  | _ => none

end Number

end EntityModel
