/-
# The fewest digits that read back

A double stands for every real that rounds to it.  Its shortest text is the
coarsest decimal grid with a point in that interval; of two points on one grid
the nearer one is taken.  Seventeen digits always reach a point, so the search
ends there.
-/

import LaserCut.Decimal.Binary

namespace LaserCut.Decimal

/-- Which neighbour an exact tie between two equally short texts goes to. -/
inductive Tie
  | up
  | toEven
  deriving DecidableEq

/-- Significant digits without trailing zeros, and the power of ten of the
first of them. -/
structure Significant where
  digits : List Char
  exponent : Int
  deriving DecidableEq

/-- The power of ten of the first digit of a positive fraction. -/
def leadingPower (numerator denominator : Nat) : Int :=
  if denominator ≤ numerator then
    ((digitsOf (numerator / denominator)).length : Int) - 1
  else
    let places := (digitsOf (denominator / numerator)).length
    if denominator ≤ numerator * Nat.pow 10 (places - 1) then 1 - (places : Int)
    else -(places : Int)

/-- The interval of reals that round to `mantissa * 2 ^ exponent`, in quarters
of the last place.  Below a power of two the doubles lie twice as dense, so
the lower end is half as far away. -/
def roundingEnds (mantissa : Nat) (exponent : Int) : Nat × Nat :=
  let below := if mantissa = leadingBit ∧ exponent ≠ -1074 then 1 else 2
  (4 * mantissa - below, 4 * mantissa + 2)

/-- The point of the decimal grid with the given spacing that reads back as
`mantissa * 2 ^ exponent`, if one of its two neighbours there does.  The ends
of the interval belong to it when the mantissa is even. -/
def gridPoint? (tie : Tie) (mantissa : Nat) (exponent spacing : Int) : Option Nat :=
  let (up, down) := powerOfTwo (exponent - 2)
  let quarters (n : Nat) : Nat := n * up * Nat.pow 10 (-spacing).toNat
  let units (n : Nat) : Nat := n * down * Nat.pow 10 spacing.toNat
  let (low, high) := roundingEnds mantissa exponent
  let reads (n : Nat) : Bool :=
    if mantissa % 2 = 0 then quarters low ≤ units n && units n ≤ quarters high
    else quarters low < units n && units n < quarters high
  let value := quarters (4 * mantissa)
  let lower := value / units 1
  let upper := lower + 1
  match reads lower, reads upper with
  | false, false => none
  | true, false => some lower
  | false, true => some upper
  | true, true =>
      match compare (value - units lower) (units upper - value) with
      | .lt => some lower
      | .gt => some upper
      | .eq => some (if tie = .toEven ∧ lower % 2 = 0 then lower else upper)

/-- Drops the zeros at the end of a digit list. -/
def dropTrailingZeros (digits : List Char) : List Char :=
  (digits.reverse.dropWhile (· == '0')).reverse

/-- The shortest digits of a positive `mantissa * 2 ^ exponent`. -/
def shortest (tie : Tie) (mantissa : Nat) (exponent : Int) : Significant :=
  let (up, down) := powerOfTwo exponent
  let leading := leadingPower (mantissa * up) down
  let onGrid (count : Nat) : Option Significant :=
    let spacing := leading - count
    (gridPoint? tie mantissa exponent spacing).map fun point =>
      let digits := digitsOf point
      ⟨dropTrailingZeros digits, spacing + digits.length - 1⟩
  ((List.range 17).findSome? onGrid).getD ⟨['0'], 0⟩

end LaserCut.Decimal
