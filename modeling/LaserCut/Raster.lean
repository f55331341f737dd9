/-
# Rasters

A raster is a bitmap with a place on the bed.  Its samples are stored as the
printable characters that the machine reads, row by row, and a sample of
intensity `i` is the character `33 + i / 3`.
-/

import LaserCut.Geometry.Box

namespace LaserCut

/-- A bitmap that is engraved row by row. -/
structure Raster where
  /-- The corner with the least coordinates. -/
  position : Point Float
  widthMm : Float
  heightMm : Float
  widthPx : UInt32
  heightPx : UInt32
  /-- The samples, one row after the other. -/
  image : List UInt8
  deriving DecidableEq

/-- How the samples of a raster can fail to fit it. -/
inductive RasterFault
  | length (expected found : Nat)
  | range (offset : Nat) (byte : UInt8)
  deriving DecidableEq

/-- The text of a fault in the samples. -/
def RasterFault.message : RasterFault → String
  | .length expected found =>
      "image has " ++ toString found ++ " bytes, expected " ++ toString expected
  | .range offset byte =>
      "image byte " ++ toString byte.toNat ++ " at offset " ++ toString offset ++
        " is outside [33, 118]"

namespace Sample

/-- The sample of the least intensity. -/
def least : UInt8 :=
  33

/-- The sample of the greatest intensity. -/
def greatest : UInt8 :=
  118

/-- Whether a byte is a sample. -/
def isValid (byte : UInt8) : Bool :=
  least ≤ byte && byte ≤ greatest

/-- The intensity of a sample.  A byte that is none counts as the nearest sample. -/
def decode (byte : UInt8) : UInt8 :=
  UInt8.ofNat (min 255 (3 * (byte.toNat - least.toNat)))

/-- The sample of an intensity, which is given up to a third of a step. -/
def encode (intensity : UInt8) : UInt8 :=
  least + intensity / 3

end Sample

namespace Raster

/-- The number of samples that the size in pixels asks for. -/
def sampleCount (raster : Raster) : Nat :=
  raster.widthPx.toNat * raster.heightPx.toNat

/-- The first fault in the samples: a wrong number of them is found before a
byte that is none. -/
def fault? (raster : Raster) : Option RasterFault :=
  if raster.image.length ≠ raster.sampleCount then
    some (.length raster.sampleCount raster.image.length)
  else
    (raster.image.findIdx? fun byte => !Sample.isValid byte).bind fun offset =>
      raster.image[offset]?.map (.range offset)

/-- Whether the samples fit the raster. -/
def isValid (raster : Raster) : Bool :=
  raster.fault?.isNone

/-- The first `count` rows of `width` samples. -/
def rowsOf (width : Nat) : Nat → List UInt8 → List (List UInt8)
  | 0, _ => []
  | count + 1, samples =>
      samples.take width :: rowsOf width count (samples.drop width)

/-- The rows of pixels from the first to the last. -/
def rows (raster : Raster) : List (List UInt8) :=
  rowsOf raster.widthPx.toNat raster.heightPx.toNat raster.image

/-- The intensities of the samples. -/
def intensities (raster : Raster) : List UInt8 :=
  raster.image.map Sample.decode

end Raster

/-- A sample as the character that the machine reads. -/
def Sample.char (byte : UInt8) : Char :=
  Char.ofNat byte.toNat

/-- A run of samples as text. -/
def Sample.text (samples : List UInt8) : List Char :=
  samples.map Sample.char

end LaserCut
