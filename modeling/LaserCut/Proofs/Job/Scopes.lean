/-
# Names of scopes

The statistics of a job have one name for each scope: those of the colors, one for the
rasters and one for the whole.  The scope of a color stands under its name unless that is
one of the other two.  A color with the name of the whole, or with that of the rasters
where there are any, counts in the whole like every other, but what stands under its name
is not its scope, and the numbers of the passes that use it are not those of its strokes.
-/

import Mathlib
import LaserCut.Proofs.Job.Outline

namespace LaserCut

namespace Stats

/-- Whether a scope that is no color's stands under a name. -/
def IsTaken (rasters : List Raster) (name : String) : Prop :=
  name = wholeName ∨ name = rastersName ∧ rasters ≠ []

/-- The scope of a color stands under a name that is not taken. -/
theorem get?_compute_of_free {colors : ColorPaths} {rasters : List Raster} {name : String}
    (free : ¬ IsTaken rasters name) (runway : Float) :
    (compute colors rasters runway).get? name = (colors.get? name).map Scope.ofPaths := by
  rw [IsTaken, not_or] at free
  rw [get?_compute, if_neg free.1, if_neg free.2]

end Stats

namespace Job

variable {job : Job}

/-- The scopes that passes use are those of the strokes of their colors, as far as there are
any and no name of a color is taken. -/
theorem passScopes_of_free (current : job.stats = job.freshStats)
    (free : ∀ color ∈ job.passColors, ¬ Stats.IsTaken job.rasters color) :
    job.passScopes = (job.passColors.filterMap job.colors.get?).map Scope.ofPaths := by
  rw [passScopes, List.map_filterMap, current]
  exact List.filterMap_congr fun color inside => Stats.get?_compute_of_free (free color inside) _

/-- In fresh statistics the scope of every color stands under its name, if the name is not
taken, and the whole is that of all colors and rasters, whatever their names are.  The
length of the passes is that of the strokes of their colors, each of them once, if no
name of these is taken. -/
theorem scope_of_color (current : job.stats = job.freshStats) :
    (∀ color paths, job.colors.get? color = some paths → ¬ Stats.IsTaken job.rasters color →
      job.stats.get? color = some (Scope.ofPaths paths)) ∧
    job.stats.whole? = some (job.scopes.foldl Scope.merge .empty) ∧
    ((∀ color ∈ job.passColors, ¬ Stats.IsTaken job.rasters color) →
      job.passLength =
        ((job.passColors.filterMap job.colors.get?).map fun paths =>
          (Scope.ofPaths paths).length).foldl (· + ·) (-0.0)) := by
  refine ⟨fun color paths found free => ?_, ?_, fun free => ?_⟩
  · rw [current]
    exact (Stats.get?_compute_of_free free _).trans (congrArg (Option.map Scope.ofPaths) found)
  · rw [current]
    exact whole?_freshStats job
  · rw [passLength, passScopes_of_free current free, List.map_map]
    rfl

/-- A stroke that is five long. -/
def namesakePaths : List (Path Float) :=
  [[⟨0, 0⟩, ⟨3, 4⟩]]

/-- A job with a raster and a color of some name, and a pass that uses the color. -/
def namesake (name : String) : Job :=
  recompute
    { sample with
      colors := ⟨[(name, namesakePaths)], List.nodup_singleton name⟩
      passes := [⟨[name], 1200, 50⟩] }

/-- A color that has the name of the rasters or of the whole does not have its scope under its
name, and a pass that uses it is not as long as its stroke. -/
theorem namesake_shadowed :
    (Scope.ofPaths namesakePaths).length = 5 ∧
      (namesake Stats.rastersName).stats.get? Stats.rastersName ≠
        some (Scope.ofPaths namesakePaths) ∧
      (namesake Stats.rastersName).passLength = 164 ∧
      (namesake Stats.wholeName).stats.get? Stats.wholeName ≠
        some (Scope.ofPaths namesakePaths) ∧
      (namesake Stats.wholeName).passLength = 169 := by
  decide +kernel

end Job

end LaserCut
