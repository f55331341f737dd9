/-
# The exact value of a double

Every number of a job is a double, and every text that is written for one is a
rule about its exact value.  This module takes a double apart into a whole
number and a power of two, so that those rules can be stated and computed in
`Nat`, where nothing is rounded.
-/

namespace LaserCut.Decimal

/-- What a double denotes.  A finite one is `mantissa * 2 ^ exponent` with a
sign of its own, because a zero has a sign too. -/
inductive Binary
  | nan
  | infinite (negative : Bool)
  | finite (negative : Bool) (mantissa : Nat) (exponent : Int)
  deriving DecidableEq

/-- The leading bit of a normal mantissa, which is not stored: `2 ^ 52`. -/
def leadingBit : Nat :=
  0x10000000000000

/-- The parts of a double: a sign bit, eleven bits of exponent and the bits of
the mantissa that follow the leading one.  The least exponent is shared by the
subnormal numbers, which lack the leading bit, and the smallest normal ones. -/
def Binary.ofFloat (value : Float) : Binary :=
  let bits := value.toBits.toNat
  let negative := bits / 0x8000000000000000 == 1
  let biased : Nat := bits / leadingBit % 2048
  let fraction : Nat := bits % leadingBit
  if biased = 2047 then
    if fraction = 0 then .infinite negative else .nan
  else if biased = 0 then .finite negative fraction (-1074)
  else .finite negative (leadingBit + fraction) ((biased : Int) - 1075)

/-- A power of two as a fraction, numerator first. -/
def powerOfTwo (exponent : Int) : Nat × Nat :=
  (Nat.pow 2 exponent.toNat, Nat.pow 2 (-exponent).toNat)

/-- A quotient to the nearest whole number, a tie to the even neighbour. -/
def divideToEven (numerator denominator : Nat) : Nat :=
  let quotient := numerator / denominator
  let twice := 2 * (numerator % denominator)
  if twice < denominator ∨ twice = denominator ∧ quotient % 2 = 0 then quotient
  else quotient + 1

/-- The decimal digits of a whole number, without superfluous zeros. -/
def digitsOf (n : Nat) : List Char :=
  Nat.toDigits 10 n

end LaserCut.Decimal
