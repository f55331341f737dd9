/-
# Statistics

A scope is a color, all rasters together, or the whole job; each has a bounding
box and a length of travel.  Statistics follow from the strokes and rasters and
can be computed again at any time.
-/

import LaserCut.Geometry.Polyline
import LaserCut.Keyed
import LaserCut.Raster

namespace LaserCut

/-- The bounding box and the travel of one scope. -/
structure Scope (α : Type) where
  box : Box α
  length : α
  deriving DecidableEq

namespace Scope

variable {α : Type} [Scalar α]

/-- The scope of nothing. -/
def empty : Scope α :=
  ⟨.empty, Scalar.ofNat 0⟩

/-- Adds a stroke.  One with fewer than two points adds nothing. -/
def addStroke (scope : Scope α) (path : Path α) : Scope α :=
  if 1 < path.length then
    ⟨path.foldl Box.expand scope.box, scope.length + Path.travel path⟩
  else scope

/-- The scope of several strokes. -/
def ofPaths (paths : List (Path α)) : Scope α :=
  paths.foldl addStroke empty

/-- Adds another scope. -/
def merge (scope other : Scope α) : Scope α :=
  ⟨scope.box.merge other.box, scope.length + other.length⟩

end Scope

/-- Adds a raster: its rectangle with the runway on either side, and a run over
the widened width for each row of pixels. -/
def Scope.addRaster (runway : Float) (scope : Scope Float) (raster : Raster) :
    Scope Float :=
  let x := raster.position.x
  let y := raster.position.y
  let least : Point Float := ⟨x - runway, y⟩
  let greatest : Point Float := ⟨x + raster.widthMm + runway, y + raster.heightMm⟩
  let run := 2.0 * runway + raster.widthMm
  ⟨(scope.box.expand least).expand greatest,
    scope.length + run * Float.ofNat raster.heightPx.toNat⟩

/-- The scope of several rasters. -/
def Scope.ofRasters (runway : Float) (rasters : List Raster) : Scope Float :=
  rasters.foldl (addRaster runway) empty

/-- Statistics by scope: the name of a color, of the rasters or of the whole. -/
abbrev Stats :=
  Keyed (Scope Float)

/-- Strokes by color. -/
abbrev ColorPaths :=
  Keyed (List (Path Float))

namespace Stats

/-- The name of the whole job. -/
def wholeName : String :=
  "_all_"

/-- The name of the rasters. -/
def rastersName : String :=
  "rasters"

/-- The scope of the whole job. -/
def whole? (stats : Stats) : Option (Scope Float) :=
  stats.get? wholeName

/-- The scope of the rasters. -/
def rasters? (stats : Stats) : Option (Scope Float) :=
  stats.get? rastersName

section Assembled

variable {α : Type} [Scalar α]

/-- The scopes of the colors. -/
def ofColors (colors : Keyed (List (Path α))) : Keyed (Scope α) :=
  colors.map Scope.ofPaths

/-- The scopes of the colors together, added in the order of their names. -/
def wholeOfColors (colors : Keyed (Scope α)) : Scope α :=
  (colors.keys.mergeSort fun a b => decide (a ≤ b)).foldl (fun whole color =>
    match colors.get? color with
    | some scope => whole.merge scope
    | none => whole) .empty

/-- The statistics of strokes and of all rasters together, if there are any: every
color in its order, then the rasters, then the whole. -/
def assembled (colors : Keyed (List (Path α))) (engraved : Option (Scope α)) :
    Keyed (Scope α) :=
  let byColor := ofColors colors
  let strokes := wholeOfColors byColor
  match engraved with
  | none => byColor.insert wholeName strokes
  | some engraved =>
      (byColor.insert rastersName engraved).insert wholeName (strokes.merge engraved)

end Assembled

/-- The statistics of strokes and rasters. -/
def compute (colors : ColorPaths) (rasters : List Raster) (runway : Float) : Stats :=
  assembled colors (if rasters.isEmpty then none else some (Scope.ofRasters runway rasters))

end Stats

end LaserCut
