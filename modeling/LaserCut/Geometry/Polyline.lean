/-
# Strokes: their length, and dividing their long lines

A line that is longer than a limit is divided into equal parts by new points
on it.  The points of the stroke itself are kept as they are, in their order.
-/

import LaserCut.Geometry.Box

namespace LaserCut

namespace Path

variable {α : Type} [Scalar α]

/-- The lines of a stroke: each point with the one after it. -/
def lines (path : Path α) : List (Point α × Point α) :=
  path.zip path.tail

/-- The length of a stroke, summed from its first line on.  The sum starts at
a negative zero, which is what a stroke without a line has. -/
def travel (path : Path α) : α :=
  (lines path).foldl (fun sum line => sum + line.1.distance line.2) (-Scalar.ofNat 0)

/-- Whether a line is longer than the limit, by the squares of the two. -/
def isLong (limit : α) (start stop : Point α) : Bool :=
  decide (limit * limit < start.distanceSquared stop)

/-- The number of equal parts that a long line is divided into. -/
def parts (limit : α) (start stop : Point α) : Nat :=
  Scalar.ceiling (start.distance stop / limit)

/-- The points at `1/n`, `2/n`, … of the line that lie before its end. -/
def dividers (n : Nat) (start stop : Point α) : Path α :=
  (List.range' 1 (n - 1)).map fun k =>
    start.lerp stop (Scalar.ofNat k / Scalar.ofNat n)

/-- Adds a numbered line without its end to the points that have been put out.  There
are none before the first long line, which brings the points in front of it. -/
def divideLine (limit : α) (path : Path α) (points? : Option (Array (Point α)))
    (line : (Point α × Point α) × Nat) : Option (Array (Point α)) :=
  let ((start, stop), index) := line
  if isLong limit start stop then
    let points := points?.getD (path.take index).toArray
    some (points.push start ++ dividers (parts limit start stop) start stop)
  else points?.map fun points => points.push start

/-- Divides the long lines of a stroke, or tells that there are none.  A limit
that is not positive divides nothing. -/
def segmentize? (limit : α) (path : Path α) : Option (Path α) :=
  if path.length < 2 ∨ ¬ Scalar.ofNat 0 < limit then none
  else
    ((lines path).zipIdx.foldl (divideLine limit path) none).map fun points =>
      points.toList ++ path.getLast?.toList

/-- Divides the long lines of several strokes and counts the strokes changed. -/
def segmentizeAll (limit : α) (paths : List (Path α)) : List (Path α) × Nat :=
  let results := paths.map fun path => (path, segmentize? limit path)
  (results.map fun result => result.2.getD result.1,
    results.countP fun result => result.2.isSome)

end Path

end LaserCut
