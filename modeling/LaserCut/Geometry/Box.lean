/-
# Bounding boxes

A fresh box has its least corner at infinity and its greatest corner at the
origin, and it grows a point at a time.  A coordinate that moves the least
corner is not compared with the greatest one, so the first point of a stroke
never moves the greatest corner.
-/

import LaserCut.Geometry.Point

namespace LaserCut

/-- An axis-parallel box, least corner first. -/
structure Box (α : Type) where
  minX : α
  minY : α
  maxX : α
  maxY : α
  deriving DecidableEq

namespace Box

variable {α : Type} [Scalar α]

/-- The box that no point has touched. -/
def empty : Box α :=
  ⟨Scalar.infinity, Scalar.infinity, Scalar.ofNat 0, Scalar.ofNat 0⟩

/-- One axis of `expand`: the ends after a coordinate has been seen. -/
def widen (least greatest coordinate : α) : α × α :=
  if coordinate < least then (coordinate, greatest)
  else if greatest < coordinate then (least, coordinate)
  else (least, greatest)

/-- Grows the box to a point. -/
def expand (box : Box α) (point : Point α) : Box α :=
  let (minX, maxX) := widen box.minX box.maxX point.x
  let (minY, maxY) := widen box.minY box.maxY point.y
  ⟨minX, minY, maxX, maxY⟩

/-- Grows the box to both corners of another one, the least corner first.  An
empty box is no exception: it sends the greatest corner to infinity. -/
def merge (box other : Box α) : Box α :=
  (box.expand ⟨other.minX, other.minY⟩).expand ⟨other.maxX, other.maxY⟩

/-- The corners and the start again, in the order in which a frame visits them. -/
def outline (box : Box α) : Path α :=
  [⟨box.minX, box.minY⟩, ⟨box.maxX, box.minY⟩, ⟨box.maxX, box.maxY⟩,
    ⟨box.minX, box.maxY⟩, ⟨box.minX, box.minY⟩]

end Box

/-- Whether a box has the ends of the empty one, as numbers. -/
def Box.isEmpty (box : Box Float) : Bool :=
  let blank : Box Float := .empty
  box.minX == blank.minX && box.minY == blank.minY &&
    box.maxX == blank.maxX && box.maxY == blank.maxY

end LaserCut
