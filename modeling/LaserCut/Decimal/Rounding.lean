/-
# Whole numbers from doubles

Truncation, ceilings and rounding are computed on the exact value, so each of
them is a statement about a mantissa and an exponent.  A double whose exponent
is not negative is whole already.
-/

import LaserCut.Decimal.Binary

namespace LaserCut.Decimal

/-- The largest count that a machine word holds; larger ones stop there. -/
def maxCount : Nat :=
  UInt64.size - 1

/-- A whole number with the sign of the double that it comes from, so that a
negative fraction becomes a negative zero. -/
def signedWhole (negative : Bool) (magnitude : Nat) : Float :=
  if negative then -Float.ofNat magnitude else Float.ofNat magnitude

/-- The whole part, toward zero.  A NaN and the infinities stay as they are. -/
def truncate (value : Float) : Float :=
  match Binary.ofFloat value with
  | .finite negative mantissa (.negSucc k) =>
      signedWhole negative (mantissa / Nat.pow 2 (k + 1))
  | _ => value

/-- The nearest whole number, a tie away from zero. -/
def roundAway (value : Float) : Float :=
  match Binary.ofFloat value with
  | .finite negative mantissa (.negSucc k) =>
      signedWhole negative ((2 * mantissa + Nat.pow 2 (k + 1)) / Nat.pow 2 (k + 2))
  | _ => value

/-- The integer that a double denotes, if it denotes one. -/
def whole? (value : Float) : Option Int :=
  match Binary.ofFloat value with
  | .finite negative mantissa exponent =>
      let (up, down) := powerOfTwo exponent
      if mantissa % down = 0 then
        let magnitude : Nat := mantissa / down * up
        some (if negative then -magnitude else magnitude)
      else none
  | _ => none

/-- The least whole number that is not below the value, as a count: nothing is
below zero, nothing above `maxCount`, and a NaN counts nothing. -/
def ceilingCount (value : Float) : Nat :=
  match Binary.ofFloat value with
  | .nan => 0
  | .infinite negative => if negative then 0 else maxCount
  | .finite negative mantissa exponent =>
      let (up, down) := powerOfTwo exponent
      if negative then 0 else min ((mantissa * up + down - 1) / down) maxCount

/-- The whole part as a count, with the limits of `ceilingCount`. -/
def floorCount (value : Float) : Nat :=
  match Binary.ofFloat value with
  | .nan => 0
  | .infinite negative => if negative then 0 else maxCount
  | .finite negative mantissa exponent =>
      let (up, down) := powerOfTwo exponent
      if negative then 0 else min (mantissa * up / down) maxCount

end LaserCut.Decimal
