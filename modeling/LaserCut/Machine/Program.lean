/-
# From a job to a machine program

A program engraves the rasters first and then runs the passes in their order.
A raster row is sent in data lines of a bounded length, and the last line of a
row is sent even when nothing is left for it.
-/

import LaserCut.Job.Basic
import LaserCut.Machine.Instruction

namespace LaserCut.Machine

/-- The samples of a row in pieces of `width`, and the rest that is shorter. -/
def chunks (width : Nat) (row : List UInt8) : List (List UInt8) :=
  let full := row.length / width
  (List.range full).map (fun k => (row.drop (k * width)).take width) ++
    [row.drop (full * width)]

/-- The lines of a raster row. -/
def rowInstructions (width : Nat) (row : List UInt8) : List Instruction :=
  (chunks width row).map .samples ++ [.nextRow]

/-- The lines of a raster. -/
def rasterInstructions (settings : Settings) (raster : Raster) : List Instruction :=
  let width := max settings.rasterLinechars.toNat 1
  [.engraveRate settings.rasterFeedrate.toNat, .seek raster.position,
    .dotPitch settings.kerf, .runway settings.rasterOffset, .nextRow] ++
    raster.rows.flatMap (rowInstructions width)

/-- The moves of a stroke: a seek to its start and feeds along it. -/
def strokeInstructions : Path Float → List Instruction
  | [] => []
  | start :: rest => .seek start :: rest.map .feed

/-- The moves of a pass.  A color without strokes has none. -/
def passMoves (colors : ColorPaths) (pass : Pass) : List Instruction :=
  pass.colors.flatMap fun color =>
    ((colors.get? color).getD []).flatMap strokeInstructions

/-- The lines of a pass. -/
def passInstructions (colors : ColorPaths) (pass : Pass) : List Instruction :=
  .feedRate (Quantity.feedrate.constrain pass.feedrate) ::
    .power (powerOfIntensity (Quantity.intensity.constrain pass.intensity)) ::
    passMoves colors pass

/-- The lines of a whole job. -/
def jobInstructions (settings : Settings) (job : Job) : List Instruction :=
  [.absolute, .airOn, .seekRate settings.maxSeekSpeed.toNat] ++
    job.rasters.flatMap (rasterInstructions settings) ++
    job.passes.flatMap (passInstructions job.colors) ++
    [.airOff, .power 0, .home settings.maxSeekSpeed.toNat]

/-- The lines that show the frame of a job: its corners in turn. -/
def frameInstructions (settings : Settings) (job : Job) : List Instruction :=
  [.absolute, .seekRate settings.maxSeekSpeed.toNat] ++
    job.wholeStats.box.outline.map .frame ++
    [.home settings.maxSeekSpeed.toNat]

/-- The machine program of a job. -/
def encode (settings : Settings) (job : Job) : String :=
  String.ofList (programText settings.numDigits.toNat (jobInstructions settings job))

/-- The program that shows the frame of a job. -/
def encodeFrame (settings : Settings) (job : Job) : String :=
  String.ofList (programText framePlaces (frameInstructions settings job))

/-- The warnings about the values of a pass. -/
def passWarnings (pass : Pass) : List Constrained :=
  (Quantity.feedrate.warning? pass.feedrate).toList ++
    (Quantity.intensity.warning? pass.intensity).toList

/-- The warnings that encoding a job gives. -/
def warnings (job : Job) : List Constrained :=
  job.passes.flatMap passWarnings

end LaserCut.Machine
