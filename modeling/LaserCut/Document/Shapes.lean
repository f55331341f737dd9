/-
# Points, boxes and statistics in documents

A point is an array of its coordinates; whatever follows the first two is
dropped.  JSON has no infinity, so the ends of an empty box are written as
`null`, and a `null` is read as infinity.
-/

import LaserCut.Json.Reading
import LaserCut.Json.Value
import LaserCut.Stats

namespace LaserCut

open Json (Field Problem Reader RecordKind)

/-- A point as a document has it. -/
def Point.toJson (point : Point Float) : Json :=
  .array [.decimal point.x, .decimal point.y]

/-- Reads a point. -/
def Point.read : Reader (Point Float) := fun node => do
  match ← Json.readList Json.readFloat node with
  | x :: y :: _ => return ⟨x, y⟩
  | short => Json.mismatch (.invalidLength short.length "at least 2 coordinates")

/-- A stroke as a document has it. -/
def Path.toJson (path : Path Float) : Json :=
  .array (path.map Point.toJson)

/-- Reads a stroke. -/
def Path.read : Reader (Path Float) :=
  Json.readList Point.read

/-- A box as a document has it. -/
def Box.toJson (box : Box Float) : Json :=
  .array [.decimal box.minX, .decimal box.minY, .decimal box.maxX, .decimal box.maxY]

/-- Reads a box. -/
def Box.read : Reader (Box Float) := fun node => do
  let ends ← Json.readVector 4 (Json.readOption Json.readFloat) node
  let ends := ends.map fun value => value.getD Scalar.infinity
  return ⟨ends[0], ends[1], ends[2], ends[3]⟩

/-- A scope that is being read. -/
structure ScopeDraft where
  box : Option (Box Float)
  length : Option Float

/-- The fields of a scope. -/
def scopeKind : RecordKind ScopeDraft where
  name := "ScopeStats"
  fields :=
    [Field.of "bbox" Box.read ScopeDraft.box fun box draft => { draft with box := some box },
      Field.of "length" Json.readFloat ScopeDraft.length
        fun length draft => { draft with length := some length }]

/-- A scope as a document has it. -/
def Scope.toJson (scope : Scope Float) : Json :=
  .object [("bbox", scope.box.toJson), ("length", .decimal scope.length)]

/-- Reads a scope. -/
def Scope.read : Reader (Scope Float) := fun node => do
  let draft ← scopeKind.read ⟨none, none⟩ node
  let box ← Json.required "bbox" draft.box
  let length ← Json.required "length" draft.length
  return ⟨box, length⟩

/-- Statistics as a document has them. -/
def Stats.toJson (stats : Stats) : Json :=
  .object (stats.entries.map fun entry => (entry.1, entry.2.toJson))

/-- Reads statistics. -/
def Stats.read : Reader Stats :=
  Json.readMap Scope.read

end LaserCut
