/-
# The order and the names of colors

Colors are kept in the order in which a design names them, and only listings show that
order.  Two jobs with the same strokes under the same colors have the same programs,
frames and statistics, bit for bit, in whatever order the colors came.  Boxes and lengths
are not joined alike in every order; they are joined in the order of the names.

The names are read for that order and for finding strokes.  A program has its strokes in
the order of the passes, so other names give the same program.
-/

import Mathlib
import LaserCut.Machine.Program
import LaserCut.Proofs.Job.Content
import LaserCut.Proofs.Job.Outline

namespace LaserCut

namespace Stats

/-- Names are sorted alike in whatever order they came. -/
theorem mergeSort_eq_of_perm {names others : List String} (perm : names.Perm others) :
    names.mergeSort (fun a b => decide (a ≤ b)) = others.mergeSort fun a b => decide (a ≤ b) := by
  have sorted (names : List String) :
      (names.mergeSort fun a b => decide (a ≤ b)).Pairwise fun a b => decide (a ≤ b) = true :=
    List.pairwise_mergeSort (fun a b c => by simpa using le_trans)
      (fun a b => by simpa using le_total a b) names
  refine List.Perm.eq_of_pairwise ?_ (sorted names) (sorted others) ?_
  · exact fun a b _ _ first second =>
      le_antisymm (of_decide_eq_true first) (of_decide_eq_true second)
  · exact (names.mergeSort_perm _).trans (perm.trans (others.mergeSort_perm _).symm)

/-- The scopes come in the same order in whatever order the colors came. -/
theorem scopes_of_perm {colors others : ColorPaths}
    (perm : colors.entries.Perm others.entries) (rasters : List Raster) (runway : Float) :
    scopes colors rasters runway = scopes others rasters runway := by
  have byColor : (ofColors colors).entries.Perm (ofColors others).entries := perm.map _
  have names : (ofColors colors).keys.Perm (ofColors others).keys := byColor.map Prod.fst
  have found : (ofColors colors).get? = (ofColors others).get? :=
    funext (Keyed.get?_of_perm byColor)
  rw [scopes, scopes, mergeSort_eq_of_perm names, found]

/-- The scope under a name does not depend on the order of the colors, whether it is that of
a color, of the rasters or of the whole. -/
theorem get?_compute_of_perm {colors others : ColorPaths}
    (perm : colors.entries.Perm others.entries) (rasters : List Raster) (runway : Float)
    (name : String) :
    (compute colors rasters runway).get? name = (compute others rasters runway).get? name := by
  rw [get?_compute, get?_compute, scopes_of_perm perm, Keyed.get?_of_perm perm]

end Stats

namespace Job

/-- Whether two jobs have the same content and settings, with their colors in any order. -/
structure IsReordering (job other : Job) : Prop where
  settings : job.settings = other.settings
  colors : job.colors.entries.Perm other.colors.entries
  rasters : job.rasters = other.rasters
  passes : job.passes = other.passes

/-- Whether two jobs have the same outputs: programs and what is reported about them, frames,
and the numbers of the whole, of each scope and of the passes. -/
structure HasOutputsOf (job other : Job) : Prop where
  program : ∀ machine, Machine.encode machine job = Machine.encode machine other
  warnings : Machine.warnings job = Machine.warnings other
  frame : ∀ machine, Machine.encodeFrame machine job = Machine.encodeFrame machine other
  whole : job.wholeStats = other.wholeStats
  scope : ∀ name, job.stats.get? name = other.stats.get? name
  passBox : job.passBox = other.passBox
  passLength : job.passLength = other.passLength

variable {job other : Job}

/-- The lines of passes depend on what is found under each of their colors. -/
theorem passInstructions_congr {colors others : ColorPaths}
    (found : ∀ color, colors.get? color = others.get? color) (pass : Pass) :
    Machine.passInstructions colors pass = Machine.passInstructions others pass := by
  simp only [Machine.passInstructions, Machine.passMoves, found]

/-- Jobs with their colors in any order have the same outputs once their statistics are
computed. -/
theorem IsReordering.hasOutputsOf (reordering : job.IsReordering other)
    (current : job.stats = job.freshStats) (current_other : other.stats = other.freshStats) :
    job.HasOutputsOf other := by
  obtain ⟨settings, colors, rasters, passes⟩ := reordering
  have scope : job.stats.get? = other.stats.get? := by
    funext name
    rw [current, current_other, freshStats, freshStats, ← rasters, ← settings]
    exact Stats.get?_compute_of_perm colors ..
  have fresh : job.freshStats.whole? = other.freshStats.whole? := by
    rw [← current, ← current_other]
    exact congrFun scope _
  have whole : job.wholeStats = other.wholeStats := by
    rw [wholeStats, wholeStats, fresh]
    exact congrArg (Option.getD · _) (congrFun scope _)
  have passScopes : job.passScopes = other.passScopes := by
    rw [Job.passScopes, Job.passScopes, passColors, passColors, passes, scope]
  constructor
  · intro machine
    rw [Machine.encode, Machine.encode, Machine.jobInstructions, Machine.jobInstructions, rasters,
      passes, funext (passInstructions_congr (Keyed.get?_of_perm colors))]
  · rw [Machine.warnings, Machine.warnings, passes]
  · intro machine
    rw [Machine.encodeFrame, Machine.encodeFrame, Machine.frameInstructions,
      Machine.frameInstructions, whole]
  · exact whole
  · exact congrFun scope
  · rw [passBox, passBox, passScopes]
  · rw [passLength, passLength, passScopes]

/-- Scopes whose boxes and lengths are joined to different ones in the other order: that of a
stroke from right to left, which has its ends out of order, and two others. -/
def orderedScopes : List (Scope Float) :=
  [⟨⟨4, 4, 0, 0⟩, 0.1⟩, ⟨⟨1, 1, 2, 2⟩, 0.2⟩, ⟨⟨1, 1, 2, 2⟩, 0.3⟩]

/-- Colors that came in another order leave no trace in the outputs of a job whose statistics
are computed, although neither boxes nor lengths are joined alike in every order. -/
theorem hasOutputsOf_of_isReordering (reordering : job.IsReordering other)
    (current : job.stats = job.freshStats) (current_other : other.stats = other.freshStats) :
    job.HasOutputsOf other ∧ ∃ scopes : List (Scope Float),
      (scopes.foldl Scope.merge .empty).box ≠ (scopes.reverse.foldl Scope.merge .empty).box ∧
        (scopes.foldl Scope.merge .empty).length ≠
          (scopes.reverse.foldl Scope.merge .empty).length :=
  ⟨reordering.hasOutputsOf current current_other, orderedScopes, by decide +kernel⟩

/-- Colors of which the one in the middle has the name of the rasters and no line. -/
def sampleColors : List (String × List (Path Float)) :=
  [("#ff0000", [[⟨0, 0⟩, ⟨3, 4⟩]]), (Stats.rastersName, [[⟨9, 9⟩]]),
    ("#000000", [[⟨1.5, -2⟩, ⟨0.5, 0.25⟩]])]

/-- The sample job with these colors has the same outputs when they come the other way
around. -/
theorem hasOutputsOf_sample :
    let job := { sample with colors := ⟨sampleColors, by decide⟩ }.recompute
    let other := { sample with colors := ⟨sampleColors.reverse, by decide⟩ }.recompute
    job.IsReordering other ∧ job.colors.keys ≠ other.colors.keys ∧
      job.stats = job.freshStats ∧ other.stats = other.freshStats ∧ job.HasOutputsOf other := by
  intro job other
  have reordering : job.IsReordering other :=
    ⟨rfl, sampleColors.reverse_perm.symm, rfl, rfl⟩
  exact ⟨reordering, by decide, rfl, rfl, (hasOutputsOf_of_isReordering reordering rfl rfl).1⟩

/-- The names of the colors of a job: those with strokes, and those of passes. -/
def colorNames (job : Job) : List String :=
  job.colors.keys ++ job.passes.flatMap Pass.colors

/-- Whether a job is another one with its colors renamed, so that different colors keep
different names.  Nothing is asked of its settings and statistics. -/
structure IsRenaming (rename : String → String) (job renamed : Job) : Prop where
  apart : Set.InjOn rename {name | name ∈ job.colorNames}
  colors : renamed.colors.entries = job.colors.entries.map fun entry => (rename entry.1, entry.2)
  rasters : renamed.rasters = job.rasters
  passes : renamed.passes =
    job.passes.map fun pass => { pass with colors := pass.colors.map rename }

variable {rename : String → String} {renamed : Job}

/-- The strokes of a color of a pass are found under its new name. -/
theorem IsRenaming.get? (renames : IsRenaming rename job renamed) {pass : Pass}
    (inside : pass ∈ job.passes) {color : String} (listed : color ∈ pass.colors) :
    renamed.colors.get? (rename color) = job.colors.get? color := by
  refine Keyed.get?_renamed renames.colors fun entry stored same => ?_
  refine renames.apart (List.mem_append_left _ (List.mem_map_of_mem stored)) ?_ same
  exact List.mem_append_right _ (List.mem_flatMap_of_mem inside listed)

/-- A renamed pass has the lines of the pass. -/
theorem IsRenaming.passInstructions (renames : IsRenaming rename job renamed) {pass : Pass}
    (inside : pass ∈ job.passes) :
    Machine.passInstructions renamed.colors { pass with colors := pass.colors.map rename } =
      Machine.passInstructions job.colors pass := by
  have moves : Machine.passMoves renamed.colors { pass with colors := pass.colors.map rename } =
      Machine.passMoves job.colors pass := by
    rw [Machine.passMoves, Machine.passMoves, List.flatMap_map]
    exact List.flatMap_congr fun color listed => by rw [renames.get? inside listed]
  rw [Machine.passInstructions, Machine.passInstructions, moves]

/-- The names of colors have no influence on a program, whatever characters they have, and
none on what is reported about it. -/
theorem encode_eq_of_isRenaming (renames : IsRenaming rename job renamed) (machine : Settings) :
    Machine.encode machine renamed = Machine.encode machine job ∧
      Machine.warnings renamed = Machine.warnings job := by
  have passes : renamed.passes.flatMap (Machine.passInstructions renamed.colors) =
      job.passes.flatMap (Machine.passInstructions job.colors) := by
    rw [renames.passes, List.flatMap_map]
    exact List.flatMap_congr fun pass inside => renames.passInstructions inside
  constructor
  · rw [Machine.encode, Machine.encode, Machine.jobInstructions, Machine.jobInstructions, passes,
      renames.rasters]
  · rw [Machine.warnings, Machine.warnings, renames.passes, List.flatMap_map]
    rfl

/-- A name of a color that has lines of a program in it. -/
def sampleRename (name : String) : String :=
  name ++ "\nM80\nS255\nG1X0Y0"

/-- The program of the sample job is the same with such names, also where a pass has a color
without strokes. -/
theorem encode_sample_renamed :
    let renamed : Job :=
      { sample with
        colors :=
          ⟨sample.colors.entries.map fun entry => (sampleRename entry.1, entry.2), by decide⟩
        passes := sample.passes.map fun pass =>
          { pass with colors := pass.colors.map sampleRename } }
    IsRenaming sampleRename sample renamed ∧
      Machine.encode .default renamed = Machine.encode .default sample ∧
      Machine.warnings renamed = Machine.warnings sample := by
  intro renamed
  have apart : Set.InjOn sampleRename {name | name ∈ sample.colorNames} :=
    fun _ _ _ _ same => (String.append_left_inj _).mp same
  have renames : IsRenaming sampleRename sample renamed := ⟨apart, rfl, rfl, rfl⟩
  exact ⟨renames, encode_eq_of_isRenaming renames .default⟩

end Job

end LaserCut
