/-
# Limits of the machine

Feedrates and intensities lose their fraction first and are then moved into
the range that the machine takes, so a feedrate of a half is raised to the
least one.  Intensities are percents; the machine counts power from 0 to 255.
-/

import LaserCut.Decimal.Rounding
import LaserCut.Message

namespace LaserCut

namespace Quantity

/-- The least value that the machine takes. -/
def least : Quantity → Float
  | .feedrate => 0.1
  | .intensity => 0.0

/-- The greatest value that the machine takes. -/
def greatest : Quantity → Float
  | .feedrate => 24000.0
  | .intensity => 100.0

/-- The limit that takes the place of a value out of range; a NaN is below. -/
def limit? (quantity : Quantity) (value : Float) : Option Float :=
  if value.isNaN || value < quantity.least then some quantity.least
  else if value > quantity.greatest then some quantity.greatest
  else none

/-- The value that the machine is given. -/
def constrain (quantity : Quantity) (requested : Float) : Float :=
  let value := Decimal.truncate requested
  (quantity.limit? value).getD value

/-- The warning about a value that was out of range. -/
def warning? (quantity : Quantity) (requested : Float) : Option Constrained :=
  let value := Decimal.truncate requested
  (quantity.limit? value).map fun limit => ⟨quantity, value, limit⟩

end Quantity

namespace Machine

/-- The power of a whole percentage, a half rounded up. -/
def powerOfIntensity (percent : Float) : Nat :=
  let bounded :=
    if percent < 0.0 then 0.0 else if percent > 100.0 then 100.0 else percent
  (Decimal.floorCount bounded * 255 + 50) / 100

/-- The percentage of a power, to the nearest whole one. -/
def intensityOfPower (power : Float) : Float :=
  Decimal.roundAway (power / 2.55)

/-- The text of a number in a word of a machine program: the fewest digits that
read back, and no sign on a zero. -/
def numberText (value : Float) : List Char :=
  match Decimal.Binary.ofFloat value with
  | .nan => "NaN".toList
  | .infinite negative => (if negative then "-Infinity" else "Infinity").toList
  | .finite _ mantissa _ =>
      if mantissa = 0 then ['0'] else Decimal.plain.render value

end Machine

end LaserCut
