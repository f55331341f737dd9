/-
# The content of a job

What is asked of a job before it is machined: coordinates and the positions of
rasters are finite, and rasters are valid.
-/

import Mathlib
import LaserCut.Job.Basic
import LaserCut.Proofs.Keyed

namespace LaserCut

/-- Whether the coordinates of a point are finite. -/
def Point.IsFinite (point : Point Float) : Prop :=
  point.x.isFinite ∧ point.y.isFinite

namespace Job

/-- Whether all coordinates of strokes are finite. -/
def HasFinitePaths (job : Job) : Prop :=
  ∀ entry ∈ job.colors.entries, ∀ path ∈ entry.2, ∀ point ∈ path, point.IsFinite

/-- Whether the positions of all rasters are finite. -/
def HasFiniteRasters (job : Job) : Prop :=
  ∀ raster ∈ job.rasters, raster.position.IsFinite

/-- Whether the samples of all rasters fit them. -/
def HasValidRasters (job : Job) : Prop :=
  ∀ raster ∈ job.rasters, raster.isValid

/-- The strokes under a color are finite, whether or not there are any. -/
theorem HasFinitePaths.get? {job : Job} (finite : job.HasFinitePaths) (color : String) :
    ∀ path ∈ (job.colors.get? color).getD [], ∀ point ∈ path, point.IsFinite := by
  cases found : job.colors.get? color with
  | none => simp
  | some paths => exact finite (color, paths) (Keyed.mem_of_get? found)

/-- A job whose samples look like comments and codes, with a stroke that has no
line and a pass that asks for more than the machine takes. -/
def sample : Job where
  settings := .default
  colors := ⟨[("#000000", [[⟨1.5, 2⟩, ⟨3, 4.25⟩], [⟨5, 6⟩]])], by decide⟩
  rasters := [⟨⟨0.5, 0.25⟩, 2, 1, 3, 2, [40, 59, 71, 49, 88, 41]⟩]
  passes := [⟨["#000000", "#ff0000"], 1200, 50⟩, ⟨[], 0, 200⟩]
  stats := .empty

theorem sample_hasFinitePaths : sample.HasFinitePaths := by
  simp only [HasFinitePaths, sample, List.forall_mem_cons, List.not_mem_nil, Point.IsFinite,
    false_implies, implies_true, and_true]
  decide

theorem sample_hasFiniteRasters : sample.HasFiniteRasters := by
  simp only [HasFiniteRasters, sample, List.forall_mem_cons, List.not_mem_nil, Point.IsFinite,
    false_implies, implies_true, and_true]
  decide

theorem sample_hasValidRasters : sample.HasValidRasters := by
  simp only [HasValidRasters, sample, List.forall_mem_cons, List.not_mem_nil, false_implies,
    implies_true, and_true]
  decide

end Job

end LaserCut
