/-
# Rasters in documents

The samples of a raster travel as a string, one character to a sample.  A
raster is read whether or not its samples fit it.
-/

import LaserCut.Document.Shapes
import LaserCut.Raster

namespace LaserCut

open Json (Field Problem Reader RecordKind)

/-- Reads samples, which have to be ASCII. -/
def Sample.read : Reader (List UInt8) := fun node => do
  let text ← Json.readString node
  if text.toList.all fun c => c.toNat < 128 then
    return text.toList.map fun c => UInt8.ofNat c.toNat
  else Json.mismatch .notAscii

/-- Reads two values of one kind. -/
def readPair {α : Type} (read : Reader α) : Reader (α × α) := fun node => do
  let pair ← Json.readVector 2 read node
  return (pair[0], pair[1])

/-- A raster that is being read. -/
structure RasterDraft where
  position : Option (Float × Float)
  sizeMm : Option (Float × Float)
  sizePx : Option (UInt32 × UInt32)
  image : Option (List UInt8)

/-- The fields of a raster. -/
def rasterKind : RecordKind RasterDraft where
  name := "Raster"
  fields :=
    [Field.of "pos" (readPair Json.readFloat) RasterDraft.position
        fun pair draft => { draft with position := some pair },
      Field.of "size_mm" (readPair Json.readFloat) RasterDraft.sizeMm
        fun pair draft => { draft with sizeMm := some pair },
      Field.of "size_px" (readPair Json.readWord32) RasterDraft.sizePx
        fun pair draft => { draft with sizePx := some pair },
      Field.of "image" Sample.read RasterDraft.image
        fun image draft => { draft with image := some image }]

namespace Raster

/-- A raster as a document has it. -/
def toJson (raster : Raster) : Json :=
  .object
    [("pos", raster.position.toJson),
      ("size_mm", .array [.decimal raster.widthMm, .decimal raster.heightMm]),
      ("size_px", .array [.integer raster.widthPx.toNat, .integer raster.heightPx.toNat]),
      ("image", .string (String.ofList (Sample.text raster.image)))]

/-- Reads a raster. -/
def read : Reader Raster := fun node => do
  let draft ← rasterKind.read ⟨none, none, none, none⟩ node
  let (x, y) ← Json.required "pos" draft.position
  let (widthMm, heightMm) ← Json.required "size_mm" draft.sizeMm
  let (widthPx, heightPx) ← Json.required "size_px" draft.sizePx
  let image ← Json.required "image" draft.image
  return ⟨⟨x, y⟩, widthMm, heightMm, widthPx, heightPx, image⟩

end Raster

end LaserCut
