/-
# Jobs from machine programs

All strokes of a program go under one color, and one pass machines them at the
rates of the last feed.
-/

import LaserCut.Machine.Program
import LaserCut.Machine.Reader

namespace LaserCut.Job

/-- The color of strokes from a machine program. -/
def drawingColor : String :=
  "#000000"

/-- Replaces all content by what a machine program describes. -/
def setDrawing (job : Job) (drawing : Machine.Drawing) : Job :=
  if drawing.paths.isEmpty then job.setPaths .empty
  else
    (job.setPaths (.ofList [(drawingColor, drawing.paths)])).addPass
      ⟨[drawingColor], drawing.feedrate.getD defaultFeedrate,
        (drawing.power.map Machine.intensityOfPower).getD defaultIntensity⟩

/-- Replaces all content by a machine program.  One that cannot be read leaves
the job as it is. -/
def setProgram (job : Job) (text : String) : Except Machine.InvalidWord Job :=
  (Machine.readProgram text).map job.setDrawing

end LaserCut.Job
