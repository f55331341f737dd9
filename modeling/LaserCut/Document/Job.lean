/-
# Jobs in documents

A document holds the passes, the strokes by color and the rasters of a job.
Statistics can be left out, and are when a job is written; those that a
document has are taken as they are.  A document that cannot be taken leaves
the job as it is.
-/

import LaserCut.Document.Pass
import LaserCut.Document.Raster
import LaserCut.Job.Basic

namespace LaserCut

open Json (Field Problem Reader RecordKind)

/-- Why a document is not taken. -/
inductive ImportFault
  | json (problem : Problem)
  | missingKey (name : String)
  | invalidRaster (index : Nat) (fault : RasterFault)
  | invalidPass (index : Nat)
  deriving DecidableEq

/-- The text about a document that is not taken; `json` is about a document that
is not read at all, and tells what differs if it is JSON. -/
def ImportFault.message : ImportFault → String
  | .json (.breach _) => "Invalid job JSON"
  | .json (.mismatch mismatch) => "Invalid job JSON: " ++ mismatch.message
  | .missingKey name => "Missing required key: " ++ name
  | .invalidRaster index fault =>
      "Invalid raster " ++ toString index ++ ": " ++ fault.message
  | .invalidPass index =>
      "Invalid pass " ++ toString index ++ ": feedrate and intensity must be finite"

/-- A document that is being read.  A field may be there and be `null`, which
counts as left out. -/
structure JobDraft where
  passes : Option (Option (List Pass))
  colors : Option (Option ColorPaths)
  rasters : Option (Option (List Raster))
  stats : Option (Option Stats)

/-- The fields of a document. -/
def jobKind : RecordKind JobDraft where
  name := "JobDocument"
  fields :=
    [Field.of "passes" (Json.readOption (Json.readList (Pass.read 2))) JobDraft.passes
        fun passes draft => { draft with passes := some passes },
      Field.of "paths_by_color" (Json.readOption (Json.readMap (Json.readList Path.read)))
        JobDraft.colors fun colors draft => { draft with colors := some colors },
      Field.of "rasters" (Json.readOption (Json.readList Raster.read)) JobDraft.rasters
        fun rasters draft => { draft with rasters := some rasters },
      (Field.of "stats" (Json.readOption Stats.read) JobDraft.stats
        fun stats draft => { draft with stats := some stats }).trailing]

/-- The content of a document. -/
structure JobContent where
  passes : List Pass
  colors : ColorPaths
  rasters : List Raster
  stats : Option Stats

namespace JobContent

/-- A part that a document has to have. -/
def part {α : Type} (name : String) (value : Option (Option α)) : Except ImportFault α :=
  match value.join with
  | some value => .ok value
  | none => .error (.missingKey name)

/-- Reads a document. -/
def read (text : String) : Except ImportFault JobContent := do
  let draft ← (Json.decode (jobKind.read ⟨none, none, none, none⟩) text).mapError .json
  let passes ← part "passes" draft.passes
  let colors ← part "paths_by_color" draft.colors
  let rasters ← part "rasters" draft.rasters
  return ⟨passes, colors, rasters, draft.stats.join⟩

/-- The first raster whose samples do not fit it. -/
def rasterFault? (document : JobContent) : Option ImportFault :=
  document.rasters.zipIdx.findSome? fun (raster, index) =>
    raster.fault?.map (.invalidRaster index)

/-- The first pass with a value that is no number. -/
def passFault? (document : JobContent) : Option ImportFault :=
  (document.passes.findIdx? fun pass => !pass.isFinite).map .invalidPass

/-- Checks a document; rasters are checked before passes. -/
def check (document : JobContent) : Except ImportFault Unit :=
  match document.rasterFault?.or document.passFault? with
  | some fault => .error fault
  | none => .ok ()

end JobContent

namespace Job

/-- Replaces all content by that of a document. -/
def setContent (job : Job) (document : JobContent) : Job :=
  let filled : Job :=
    { job.clear with
      colors := document.colors, rasters := document.rasters, passes := document.passes }
  match document.stats with
  | some stats => { filled with stats := stats }
  | none => filled.recompute

/-- Replaces all content by a document. -/
def setDocument (job : Job) (text : String) : Except ImportFault Job := do
  let document ← JobContent.read text
  document.check
  return job.setContent document

/-- The job of a document. -/
def ofDocument (text : String) (settings : Settings) : Except ImportFault Job :=
  (new settings).setDocument text

/-- A job as a document, without statistics and without the strokes of the
excluded colors.  Passes still name such colors. -/
def toJson (job : Job) (excluded : List String) : Json :=
  let colors := job.colors.filterKeys fun color => !excluded.contains color
  .object
    [("passes", .array (job.passes.map Pass.toJson)),
      ("paths_by_color",
        .object (colors.entries.map fun entry => (entry.1, .array (entry.2.map Path.toJson)))),
      ("rasters", .array (job.rasters.map Raster.toJson))]

end Job

end LaserCut
