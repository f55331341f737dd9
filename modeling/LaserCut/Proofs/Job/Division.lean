/-
# Dividing the long lines of a job

Dividing the lines of a job treats each stroke by itself and touches nothing else.  A stroke
without a long line is left alone and not counted.
-/

import Mathlib
import LaserCut.Job.Basic
import LaserCut.Proofs.Geometry.Division
import LaserCut.Proofs.Keyed

namespace LaserCut

namespace Job

/-- The counts of several colors are those of their strokes together. -/
theorem foldl_segmentizeAll (limit : Float) (colors : List (List (Path Float))) (count : Nat) :
    (colors.map (Path.segmentizeAll limit)).foldl (fun count result => count + result.2) count =
      count + colors.flatten.countP fun path => (Path.segmentize? limit path).isSome := by
  induction colors generalizing count with
  | nil => rfl
  | cons paths rest ih =>
      rw [List.map_cons, List.foldl_cons, ih, Path.segmentizeAll_snd, List.flatten_cons,
        List.countP_append, Nat.add_assoc]

/-- The points of a stroke whose long lines are divided stand at their places, with the new points
between the ends of long lines only; a stroke is left alone just when it has no line, or the limit
is not positive, or no line is long.  A job is changed in its strokes only, and the strokes that
are not left alone are counted. -/
theorem segmentize_isDivision (limit : Float) :
    (∀ path : Path Float,
      (Path.segmentize? limit path = none ↔
        path.length < 2 ∨ ¬ 0 < limit ∨
          ∀ line ∈ Path.lines path, ¬ limit * limit < line.1.distanceSquared line.2) ∧
      ∀ result, Path.segmentize? limit path = some result → Path.IsDivision limit path result) ∧
    ∀ job : Job,
      (job.segmentize limit).1 =
        { job with colors := job.colors.map fun paths => paths.map (Path.segmentized limit) } ∧
      (job.segmentize limit).2 =
        job.colors.values.flatten.countP fun path => (Path.segmentize? limit path).isSome := by
  refine ⟨fun path => ⟨Path.segmentize?_eq_none_iff, fun result known => ?_⟩, fun job => ⟨?_, ?_⟩⟩
  · obtain ⟨positive, rfl⟩ := Path.of_segmentize?_eq_some known
    exact Path.isDivision_divided (fun long => Path.one_le_parts positive long) path
  · have colors : (job.colors.map (Path.segmentizeAll limit)).map Prod.fst =
        job.colors.map fun paths => paths.map (Path.segmentized limit) := by
      apply Keyed.eq_of_entries
      simp only [Keyed.map, List.map_map, Function.comp_def, Path.segmentizeAll_fst]
    rw [segmentize, colors]
  · have values : (job.colors.map (Path.segmentizeAll limit)).values =
        job.colors.values.map (Path.segmentizeAll limit) := by
      simp only [Keyed.values, Keyed.map, List.map_map, Function.comp_def]
    rw [segmentize, values, foldl_segmentizeAll, Nat.zero_add]

/-- A long line between two short ones is divided into three parts, a stroke that is just as long
as the limit is left alone, and a line into a single point is none. -/
theorem segmentize_isDivision_sample :
    let long : Path Float := [⟨0, 0⟩, ⟨1, 0⟩, ⟨1, 9⟩, ⟨2, 9⟩]
    let result : Path Float := [⟨0, 0⟩, ⟨1, 0⟩, ⟨1, 3⟩, ⟨1, 6⟩, ⟨1, 9⟩, ⟨2, 9⟩]
    let job : Job := (new .default).setPaths
      ⟨[("#000000", [[⟨0, 0⟩, ⟨3, 0⟩], long]), ("#ff0000", [[⟨5, 5⟩]])], by decide⟩
    Path.IsDivision 3 long result ∧
      (job.segmentize 3).1.colors.entries =
        [("#000000", [[⟨0, 0⟩, ⟨3, 0⟩], result]), ("#ff0000", [[⟨5, 5⟩]])] ∧
      (job.segmentize 3).1.stats = job.stats ∧ (job.segmentize 3).2 = 1 := by
  intro long result job
  obtain ⟨strokes, jobs⟩ := segmentize_isDivision 3
  have divided : Path.segmentize? 3 long = some result := by decide +kernel
  obtain ⟨content, count⟩ := jobs job
  refine ⟨(strokes long).2 result divided, ?_, ?_, ?_⟩
  · rw [content]
    decide +kernel
  · rw [content]
  · rw [count]
    decide +kernel

end Job

end LaserCut
