/-
# Points

Coordinates are millimetres on the bed.
-/

import LaserCut.Geometry.Scalar

namespace LaserCut

/-- A point of the plane. -/
structure Point (α : Type) where
  x : α
  y : α
  deriving DecidableEq

/-- An ordered polyline: one stroke of the head. -/
abbrev Path (α : Type) :=
  List (Point α)

namespace Point

variable {α : Type} [Scalar α]

/-- The corner of the bed where every program starts. -/
def origin : Point α :=
  ⟨Scalar.ofNat 0, Scalar.ofNat 0⟩

/-- The square of the distance between two points. -/
def distanceSquared (start stop : Point α) : α :=
  let dx := stop.x - start.x
  let dy := stop.y - start.y
  dx * dx + dy * dy

/-- The distance between two points. -/
def distance (start stop : Point α) : α :=
  Scalar.squareRoot (start.distanceSquared stop)

/-- The point at parameter `t` of the line from `start`, at 0, to `stop`, at 1. -/
def lerp (start stop : Point α) (t : α) : Point α :=
  let kept := Scalar.ofNat 1 - t
  ⟨start.x * kept + stop.x * t, start.y * kept + stop.y * t⟩

end Point

end LaserCut
