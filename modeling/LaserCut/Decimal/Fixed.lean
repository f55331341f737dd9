/-
# Fixed decimal places

Coordinates are written with a fixed number of places.  The exact value is
rounded to the nearest such number, and an exact tie goes away from zero.

Rounding to nearest is done with ties to even.  Ties are recognised in a probe
that is thirty places longer, and the last kept digit of the probe is then
raised by one; the carry runs through nines and across the point.
-/

import LaserCut.Decimal.Binary

namespace LaserCut.Decimal

/-- How many further places tell a tie from a number close to one. -/
def probePlaces : Nat :=
  30

/-- The number `scaled / 10 ^ places` with exactly that many places. -/
def withPlaces (scaled places : Nat) : List Char :=
  let whole := digitsOf (scaled / Nat.pow 10 places)
  if places = 0 then whole
  else
    let fraction := digitsOf (scaled % Nat.pow 10 places)
    whole ++ '.' :: List.replicate (places - fraction.length) '0' ++ fraction

/-- Adds one unit in the last place of a digit text from its end on, and tells
whether a carry leaves the front.  The point is passed over. -/
def raise : List Char → List Char × Bool
  | [] => ([], true)
  | c :: rest =>
      let (raised, carry) := raise rest
      if !carry then (c :: raised, false)
      else if c = '.' then ('.' :: raised, true)
      else if c = '9' then ('0' :: raised, true)
      else (Char.ofNat (c.toNat + 1) :: raised, false)

/-- A digit text plus one unit in its last place; a carry out of the front
becomes a new first digit. -/
def incrementLast (text : List Char) : List Char :=
  match raise text with
  | (raised, true) => '1' :: raised
  | (raised, false) => raised

/-- The nearest multiple of `10 ^ (-places)` to a finite magnitude, counted in
that unit, ties to even. -/
def scaledToEven (mantissa : Nat) (exponent : Int) (places : Nat) : Nat :=
  let (up, down) := powerOfTwo exponent
  divideToEven (mantissa * up * Nat.pow 10 places) down

/-- The magnitude with the given places, a tie raised. -/
def fixedMagnitude (mantissa : Nat) (exponent : Int) (places : Nat) : List Char :=
  let probe := scaledToEven mantissa exponent (places + probePlaces)
  if probe % Nat.pow 10 probePlaces = 5 * Nat.pow 10 (probePlaces - 1) then
    incrementLast (withPlaces (probe / Nat.pow 10 probePlaces) places)
  else withPlaces (scaledToEven mantissa exponent places) places

/-- The name of a value that has no digits. -/
def specialName (negative nan : Bool) : String :=
  if nan then "NaN" else if negative then "-Infinity" else "Infinity"

/-- A coordinate with exactly `places` places.  A negative number keeps its
sign when it rounds to zero, and a negative zero has none. -/
def fixed (value : Float) (places : Nat) : List Char :=
  match Binary.ofFloat value with
  | .nan => (specialName false true).toList
  | .infinite negative => (specialName negative false).toList
  | .finite negative mantissa exponent =>
      let magnitude := fixedMagnitude mantissa exponent places
      if negative ∧ mantissa ≠ 0 then '-' :: magnitude else magnitude

end LaserCut.Decimal
