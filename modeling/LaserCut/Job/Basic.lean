/-
# Jobs

A job is an open design with everything that is needed to machine it: strokes
by color, rasters, passes, and the statistics of the strokes and rasters.
Whatever changes strokes or rasters computes the statistics again; dividing
long lines does not, because it moves nothing.
-/

import LaserCut.Lasertag
import LaserCut.Stats

namespace LaserCut

/-- An open design. -/
structure Job where
  settings : Settings
  colors : ColorPaths
  rasters : List Raster
  passes : List Pass
  stats : Stats

/-- A raster that was not taken, and its place in the job. -/
structure RasterRejected where
  index : Nat
  fault : RasterFault
  deriving DecidableEq

/-- The text about a raster that was not taken. -/
def RasterRejected.message (rejected : RasterRejected) : String :=
  "raster " ++ toString rejected.index ++ " violates its invariants: " ++
    rejected.fault.message

namespace Job

/-- The job without content, whose statistics name no scope. -/
def new (settings : Settings) : Job :=
  ⟨settings, .empty, [], [], .empty⟩

/-- Drops all content and keeps the settings. -/
def clear (job : Job) : Job :=
  new job.settings

/-- Whether there are neither colors nor rasters. -/
def isEmpty (job : Job) : Bool :=
  job.colors.isEmpty && job.rasters.isEmpty

/-- The statistics of the content as it is now. -/
def freshStats (job : Job) : Stats :=
  .compute job.colors job.rasters job.settings.rasterOffset

/-- Computes the statistics again. -/
def recompute (job : Job) : Job :=
  { job with stats := job.freshStats }

/-- Replaces all content by strokes. -/
def setPaths (job : Job) (colors : ColorPaths) : Job :=
  { job.clear with colors := colors }.recompute

/-- Adds rasters one by one and then computes the statistics.  At the first
raster whose samples do not fit, the work stops there: the rasters before it
stay, and the statistics are as they were. -/
def addRasters (job : Job) : List Raster → Job × Option RasterRejected
  | [] => (job.recompute, none)
  | raster :: rest =>
      match raster.fault? with
      | some fault => (job, some ⟨job.rasters.length, fault⟩)
      | none => addRasters { job with rasters := job.rasters ++ [raster] } rest

/-- Adds a pass after the others. -/
def addPass (job : Job) (pass : Pass) : Job :=
  { job with passes := job.passes ++ [pass] }

/-- Drops the passes. -/
def clearPasses (job : Job) : Job :=
  { job with passes := [] }

/-- Replaces the passes by those that lasertag rows describe. -/
def setRows (job : Job) (rows : List (List TagValue)) : Job :=
  { job with passes := passesOfRows rows }

/-- Divides the lines of all strokes that are longer than the limit, and counts
the strokes that were changed. -/
def segmentize (job : Job) (limit : Float) : Job × Nat :=
  let results := job.colors.map (Path.segmentizeAll limit)
  ({ job with colors := results.map Prod.fst },
    results.values.foldl (fun count result => count + result.2) 0)

/-- The colors of the passes, each at its first mention. -/
def passColors (job : Job) : List String :=
  (job.passes.flatMap Pass.colors).eraseDups

/-- The statistics of the whole job: those it has, or fresh ones if it was
given statistics that leave the whole out. -/
def wholeStats (job : Job) : Scope Float :=
  job.stats.whole?.getD (job.freshStats.whole?.getD .empty)

/-- The scopes of the colors that passes use. -/
def passScopes (job : Job) : List (Scope Float) :=
  job.passColors.filterMap job.stats.get?

/-- The length of the strokes that passes use. -/
def passLength (job : Job) : Float :=
  (job.passScopes.map Scope.length).foldl (· + ·) (-0.0)

/-- The bounding box of the colors that passes use. -/
def passBox (job : Job) : Box Float :=
  (job.passScopes.map Scope.box).foldl Box.merge .empty

end Job

end LaserCut
