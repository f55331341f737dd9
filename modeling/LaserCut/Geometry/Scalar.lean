/-
# The arithmetic of coordinates

Lengths, boxes and divided lines are computed with the same steps whatever the
numbers are.  A machine program is made from doubles, where every step rounds;
over exact numbers the same definitions show what the steps are meant to do.
-/

import LaserCut.Decimal.Rounding

namespace LaserCut

/-- What the geometry needs of a number. -/
class Scalar (α : Type) extends Add α, Sub α, Mul α, Div α, Neg α, LT α where
  decideLt : DecidableLT α
  ofNat : Nat → α
  /-- A value above every coordinate. -/
  infinity : α
  squareRoot : α → α
  /-- The least whole number that is not below a value. -/
  ceiling : α → Nat

attribute [reducible, instance] Scalar.decideLt

instance : Scalar Float where
  decideLt := inferInstance
  ofNat := Float.ofNat
  infinity := 1.0 / 0.0
  squareRoot := Float.sqrt
  ceiling := Decimal.ceilingCount

end LaserCut
