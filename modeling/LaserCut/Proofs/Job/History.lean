/-
# What every history of a job keeps

A job is changed by imports, by additions and by commands that drop or compute
something again.  Whatever is done to it, in whatever order and with whatever
failures in between, its rasters are valid.  Its statistics are those of its
content as long as no addition of rasters stops at a bad one and no document
brings statistics of its own.

Dividing long lines is left out: it keeps statistics that were computed from
the undivided lines.
-/

import Mathlib
import LaserCut.Job.Gcode
import LaserCut.Proofs.Document.Check
import LaserCut.Proofs.Job.Content
import LaserCut.Proofs.Job.Outline
import LaserCut.Proofs.Raster

namespace LaserCut

namespace Raster

/-- The rows of a raster are consecutive slices of its samples, none of which
ends beyond them, and nothing is left over. -/
structure IsPartitioned (raster : Raster) : Prop where
  inBounds : ∀ k < raster.heightPx.toNat, (k + 1) * raster.widthPx.toNat ≤ raster.image.length
  slices : raster.rows = (List.range raster.heightPx.toNat).map raster.row
  width : ∀ row ∈ raster.rows, row.length = raster.widthPx.toNat
  whole : raster.rows.flatten = raster.image

/-- The rows of a valid raster partition its samples. -/
theorem isPartitioned {raster : Raster} (valid : raster.isValid) : raster.IsPartitioned where
  inBounds := by
    intro k inside
    rw [(raster.isValid_iff.mp valid).1, sampleCount, mul_comm]
    exact Nat.mul_le_mul_left _ inside
  slices := raster.rows_eq_map
  width := fun _ inside => length_of_mem_rows valid inside
  whole := flatten_rows valid

end Raster

namespace Job

/-- What can be done to a job. -/
inductive Operation
  | setPaths (entries : List (String × List (Path Float)))
  | setDocument (text : String)
  /-- Puts a job of a document, with settings of its own, in place of the job. -/
  | ofDocument (text : String) (settings : Settings)
  | setProgram (text : String)
  | addRasters (rasters : List Raster)
  | addPass (pass : Pass)
  | setRows (rows : List (List TagValue))
  | clear
  | clearPasses
  | recompute

namespace Operation

/-- The job after an operation.  An import that fails leaves it as it is, and an
addition of rasters that stops leaves it as it is at that moment. -/
def perform (job : Job) : Operation → Job
  | setPaths entries => job.setPaths (.ofList entries)
  | setDocument text => (job.setDocument text).toOption.getD job
  | ofDocument text settings => (Job.ofDocument text settings).toOption.getD job
  | setProgram text => (job.setProgram text).toOption.getD job
  | addRasters rasters => (job.addRasters rasters).1
  | addPass pass => job.addPass pass
  | setRows rows => job.setRows rows
  | clear => job.clear
  | clearPasses => job.clearPasses
  | recompute => job.recompute

/-- Whether an operation stops part way, which only an addition of rasters
does. -/
def stops (job : Job) : Operation → Bool
  | addRasters rasters => (job.addRasters rasters).2.isSome
  | _ => false

/-- Whether the document of an operation, if it has one, leaves out
statistics. -/
def LeavesOutStats : Operation → Prop
  | setDocument text | ofDocument text _ =>
      ∀ document, JobContent.read text = .ok document → document.stats = none
  | _ => True

end Operation

/-- The job after a history of operations. -/
def run (job : Job) (history : List Operation) : Job :=
  history.foldl Operation.perform job

/-- Whether some operation of a history stops part way. -/
def stopsDuring (job : Job) : List Operation → Bool
  | [] => false
  | operation :: rest => operation.stops job || (operation.perform job).stopsDuring rest

/-- A job without strokes, rasters and statistics. -/
structure IsBlank (job : Job) : Prop where
  colors : job.colors.entries = []
  rasters : job.rasters = []
  stats : job.stats.entries = []

/-- Whether the statistics of a job are those of its content; a job without
content may have none. -/
def IsCurrent (job : Job) : Prop :=
  job.IsBlank ∨ job.stats = job.freshStats

/-- A document that is taken has been read and checked. -/
theorem setDocument_eq_ok {job result : Job} {text : String}
    (taken : job.setDocument text = .ok result) :
    ∃ document, JobContent.read text = .ok document ∧ document.check = .ok () ∧
      result = job.setContent document := by
  obtain ⟨document, read, rest⟩ := Attempt.bind_eq_ok_iff.mp taken
  obtain ⟨⟨⟩, checked, whole⟩ := Attempt.bind_eq_ok_iff.mp rest
  exact ⟨document, read, checked, (Except.ok.inj whole).symm⟩

/-- The rasters of a document become those of the job. -/
theorem rasters_setContent (job : Job) (document : JobContent) :
    (job.setContent document).rasters = document.rasters := by
  unfold setContent
  cases document.stats <;> rfl

/-- Statistics that a document leaves out are computed. -/
theorem stats_setContent {job : Job} {document : JobContent} (leftOut : document.stats = none) :
    (job.setContent document).stats = (job.setContent document).freshStats := by
  unfold setContent
  rw [leftOut]
  rfl

/-- A program that is taken describes a drawing. -/
theorem setProgram_eq_ok {job result : Job} {text : String}
    (taken : job.setProgram text = .ok result) : ∃ drawing, result = job.setDrawing drawing := by
  rw [setProgram] at taken
  cases read : Machine.readProgram text with
  | error fault =>
      rw [read] at taken
      cases taken
  | ok drawing =>
      rw [read] at taken
      exact ⟨drawing, (Except.ok.inj taken).symm⟩

/-- A drawing brings no rasters. -/
theorem rasters_setDrawing (job : Job) (drawing : Machine.Drawing) :
    (job.setDrawing drawing).rasters = [] := by
  unfold setDrawing
  split_ifs <;> rfl

/-- The statistics of a job with a drawing are those of its strokes. -/
theorem stats_setDrawing (job : Job) (drawing : Machine.Drawing) :
    (job.setDrawing drawing).stats = (job.setDrawing drawing).freshStats := by
  unfold setDrawing
  split_ifs <;> rfl

/-- Rasters that are added are valid, those before a bad one included. -/
theorem hasValidRasters_addRasters {job : Job} (valid : job.HasValidRasters)
    (rasters : List Raster) : (job.addRasters rasters).1.HasValidRasters := by
  induction rasters generalizing job with
  | nil => exact valid
  | cons raster rest ih =>
      rw [addRasters]
      cases fits : raster.fault? with
      | some fault => exact valid
      | none =>
          apply ih
          intro other inside
          rcases List.mem_append.mp inside with old | new
          · exact valid other old
          · rw [List.mem_singleton.mp new]
            exact Option.isNone_iff_eq_none.mpr fits

/-- The statistics are computed after the last of several rasters, unless a bad
one stops the addition. -/
theorem stats_addRasters {job : Job} {rasters : List Raster}
    (complete : (job.addRasters rasters).2.isSome = false) :
    (job.addRasters rasters).1.stats = (job.addRasters rasters).1.freshStats := by
  induction rasters generalizing job with
  | nil => rfl
  | cons raster rest ih =>
      rw [addRasters] at complete ⊢
      cases fits : raster.fault? with
      | some fault =>
          rw [fits] at complete
          cases complete
      | none =>
          rw [fits] at complete
          exact ih complete

/-- What holds of a job and of everything that an import makes of it holds after
the import, whether or not it fails. -/
theorem of_import {ε : Type} {p : Job → Prop} {job : Job} {attempt : Except ε Job} (kept : p job)
    (taken : ∀ result, attempt = .ok result → p result) : p (attempt.toOption.getD job) := by
  cases attempt with
  | error fault => exact kept
  | ok result => exact taken result rfl

/-- Every operation keeps rasters valid, also one that fails or stops. -/
theorem hasValidRasters_perform {job : Job} (valid : job.HasValidRasters)
    (operation : Operation) : (operation.perform job).HasValidRasters := by
  have withoutRasters : ∀ {other : Job}, other.rasters = [] → other.HasValidRasters := by
    intro other empty raster inside
    rw [empty] at inside
    cases inside
  have document : ∀ {other : Job} {text : String} result, other.setDocument text = .ok result →
      result.HasValidRasters := by
    intro other text result taken
    obtain ⟨document, -, checked, rfl⟩ := setDocument_eq_ok taken
    rw [HasValidRasters, rasters_setContent]
    exact (JobContent.check_eq_ok_iff.mp checked).1
  cases operation with
  | setPaths entries => exact withoutRasters rfl
  | setDocument text => exact of_import valid document
  | ofDocument text settings => exact of_import valid document
  | setProgram text =>
      refine of_import valid fun result taken => ?_
      obtain ⟨drawing, rfl⟩ := setProgram_eq_ok taken
      exact withoutRasters (rasters_setDrawing job drawing)
  | addRasters rasters => exact hasValidRasters_addRasters valid rasters
  | addPass pass => exact valid
  | setRows rows => exact valid
  | clear => exact withoutRasters rfl
  | clearPasses => exact valid
  | recompute => exact valid

/-- Every operation that is neither stopped nor given statistics keeps them
those of the content. -/
theorem isCurrent_perform {job : Job} (current : job.IsCurrent) {operation : Operation}
    (plain : operation.LeavesOutStats) (complete : operation.stops job = false) :
    (operation.perform job).IsCurrent := by
  have document : ∀ {other : Job} {text : String},
      (∀ document, JobContent.read text = .ok document → document.stats = none) →
      ∀ result, other.setDocument text = .ok result → result.IsCurrent := by
    intro other text leavesOut result taken
    obtain ⟨document, read, -, rfl⟩ := setDocument_eq_ok taken
    exact .inr (stats_setContent (leavesOut document read))
  -- statistics depend on strokes, rasters and settings only, so passes may change
  have kept : ∀ {other : Job}, other.colors = job.colors → other.rasters = job.rasters →
      other.settings = job.settings → other.stats = job.stats → other.IsCurrent := by
    intro other colors rasters settings stats
    rcases current with blank | fresh
    · exact .inl ⟨colors ▸ blank.colors, rasters ▸ blank.rasters, stats ▸ blank.stats⟩
    · exact .inr (by rw [stats, fresh, freshStats, freshStats, colors, rasters, settings])
  cases operation with
  | setPaths entries => exact .inr rfl
  | setDocument text => exact of_import current (document plain)
  | ofDocument text settings => exact of_import current (document plain)
  | setProgram text =>
      refine of_import current fun result taken => ?_
      obtain ⟨drawing, rfl⟩ := setProgram_eq_ok taken
      exact .inr (stats_setDrawing job drawing)
  | addRasters rasters => exact .inr (stats_addRasters complete)
  | addPass pass => exact kept rfl rfl rfl rfl
  | setRows rows => exact kept rfl rfl rfl rfl
  | clear => exact .inl ⟨rfl, rfl, rfl⟩
  | clearPasses => exact kept rfl rfl rfl rfl
  | recompute => exact .inr rfl

/-- Every history keeps rasters valid. -/
theorem hasValidRasters_run (history : List Operation) :
    ∀ {job : Job}, job.HasValidRasters → (job.run history).HasValidRasters := by
  induction history with
  | nil => exact fun valid => valid
  | cons operation rest ih => exact fun valid => ih (hasValidRasters_perform valid operation)

/-- Every history without a stop and without given statistics keeps them those
of the content. -/
theorem isCurrent_run {history : List Operation} :
    ∀ {job : Job}, job.IsCurrent → (∀ operation ∈ history, operation.LeavesOutStats) →
      job.stopsDuring history = false → (job.run history).IsCurrent := by
  induction history with
  | nil => exact fun current _ _ => current
  | cons operation rest ih =>
      intro job current plain complete
      obtain ⟨first, others⟩ := List.forall_mem_cons.mp plain
      rw [stopsDuring, Bool.or_eq_false_iff] at complete
      exact ih (isCurrent_perform current first complete.1) others complete.2

/-- The whole of current statistics is the whole of fresh ones. -/
theorem IsCurrent.whole?_freshStats {job : Job} (current : job.IsCurrent) :
    job.freshStats.whole? = some job.wholeStats := by
  rw [job.whole?_freshStats, wholeStats_eq]
  rcases current with blank | same
  · right
    rw [Stats.whole?, Keyed.get?, blank.stats]
    rfl
  · exact .inl same

/-- Whatever has been done to a new job, its rasters are valid and their rows
partition their samples.  If in addition no addition of rasters has stopped and
no document has brought statistics, the job is blank or its statistics are those
of its content, and the scope of the whole is the one that is computed afresh. -/
theorem isValid_and_isCurrent_run_new (settings : Settings) (history : List Operation) :
    let job := (new settings).run history
    (∀ raster ∈ job.rasters, raster.isValid ∧ raster.IsPartitioned) ∧
      ((∀ operation ∈ history, operation.LeavesOutStats) →
        (new settings).stopsDuring history = false →
        (job.IsBlank ∨ job.stats = job.freshStats) ∧
          job.freshStats.whole? = some job.wholeStats) := by
  have valid : (new settings).HasValidRasters := nofun
  have current : (new settings).IsCurrent := .inl ⟨rfl, rfl, rfl⟩
  refine ⟨fun raster inside => ?_, fun plain complete => ?_⟩
  · have fits := hasValidRasters_run history valid raster inside
    exact ⟨fits, Raster.isPartitioned fits⟩
  · have reached := isCurrent_run current plain complete
    exact ⟨reached, reached.whole?_freshStats⟩

/-- A history in which imports succeed and fail and rasters follow them. -/
def sampleHistory : List Operation :=
  [.setPaths [("#000000", [[⟨0, 0⟩, ⟨3, 4⟩]])],
    .setProgram "G1X5 #",
    .setDocument "\x7b\"passes\":[],\"paths_by_color\":\x7b\"#ff0000\":[[[0,0],[3,4]]]\x7d,\"rasters\":[]\x7d",
    .addRasters sample.rasters,
    .setDocument "[",
    .addPass .default]

theorem sampleHistory_leavesOutStats :
    ∀ operation ∈ sampleHistory, operation.LeavesOutStats := by
  have documents : ∀ operation ∈ sampleHistory, ∀ text, operation = .setDocument text →
      ((JobContent.read text).toOption.all fun document => document.stats.isNone) = true := by
    simp only [sampleHistory, List.forall_mem_cons, Operation.setDocument.injEq, reduceCtorEq,
      false_implies, implies_true, forall_eq', List.not_mem_nil, and_true, true_and]
    decide +kernel
  intro operation inside
  cases operation with
  | setDocument text =>
      intro document read
      have leavesOut := documents _ inside text rfl
      rw [read] at leavesOut
      exact Option.isNone_iff_eq_none.mp leavesOut
  | ofDocument text settings => simp [sampleHistory] at inside
  | _ => trivial

/-- The sample history neither stops nor brings statistics, and it ends with a
stroke and a raster. -/
theorem isCurrent_run_sample :
    (∀ operation ∈ sampleHistory, operation.LeavesOutStats) ∧
      (new .default).stopsDuring sampleHistory = false ∧
      ((new .default).run sampleHistory).rasters = sample.rasters ∧
      (((new .default).run sampleHistory).IsBlank ∨
        ((new .default).run sampleHistory).stats =
          ((new .default).run sampleHistory).freshStats) ∧
      ((new .default).run sampleHistory).freshStats.whole? =
        some ((new .default).run sampleHistory).wholeStats := by
  have complete : (new .default).stopsDuring sampleHistory = false := by decide +kernel
  have rasters : ((new .default).run sampleHistory).rasters = sample.rasters := by
    decide +kernel
  exact ⟨sampleHistory_leavesOutStats, complete, rasters,
    (isValid_and_isCurrent_run_new .default sampleHistory).2 sampleHistory_leavesOutStats complete⟩

end Job

end LaserCut
