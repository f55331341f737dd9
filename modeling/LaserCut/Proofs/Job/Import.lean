/-
# Imports take everything or nothing

An import changes a job field by field.  All that can stop it comes before the
first change, so a job that refuses a text is as it was; and a job that takes one
keeps nothing but its settings, so what it has been before does not show.

What a document is refused for is the first of its faults: in its text, in the
parts that it has to have, in its rasters, and in its passes.
-/

import Mathlib
import LaserCut.Job.Gcode
import LaserCut.Proofs.Document.Check
import LaserCut.Proofs.Job.Content

namespace LaserCut

open Attempt
open Json (Problem)

/-- The fields of a document, whether or not they are all there. -/
def draftOf (text : String) : Except Problem JobDraft :=
  Json.decode (jobKind.read ⟨none, none, none, none⟩) text

namespace JobDraft

/-- The document of a draft, if it has all parts. -/
def content (draft : JobDraft) : Except ImportFault JobContent := do
  let passes ← JobContent.part "passes" draft.passes
  let colors ← JobContent.part "paths_by_color" draft.colors
  let rasters ← JobContent.part "rasters" draft.rasters
  return ⟨passes, colors, rasters, draft.stats.join⟩

/-- Whether a draft has the parts of a document. -/
structure HasParts (draft : JobDraft) (document : JobContent) : Prop where
  passes : draft.passes.join = some document.passes
  colors : draft.colors.join = some document.colors
  rasters : draft.rasters.join = some document.rasters
  stats : draft.stats.join = document.stats

/-- Whether a name is that of the first part that a draft lacks. -/
inductive Lacks (draft : JobDraft) : String → Prop
  | passes (missing : draft.passes.join = none) : Lacks draft "passes"
  | colors (passes : draft.passes.join.isSome) (missing : draft.colors.join = none) :
      Lacks draft "paths_by_color"
  | rasters (passes : draft.passes.join.isSome) (colors : draft.colors.join.isSome)
      (missing : draft.rasters.join = none) : Lacks draft "rasters"

/-- A draft is a document if it has the parts of it. -/
theorem content_eq_ok_iff {draft : JobDraft} {document : JobContent} :
    draft.content = .ok document ↔ draft.HasParts document := by
  simp only [content, bind_eq_ok_iff, JobContent.part_eq_ok_iff, pure, Except.pure]
  constructor
  · rintro ⟨passes, hasPasses, colors, hasColors, rasters, hasRasters, whole⟩
    cases whole
    exact ⟨hasPasses, hasColors, hasRasters, rfl⟩
  · intro parts
    exact ⟨_, parts.passes, _, parts.colors, _, parts.rasters, by rw [parts.stats]⟩

/-- A draft is no document for the first part that it lacks. -/
theorem content_eq_error_iff {draft : JobDraft} {fault : ImportFault} :
    draft.content = .error fault ↔ ∃ name, draft.Lacks name ∧ fault = .missingKey name := by
  simp only [content, bind_eq_error_iff, JobContent.part_eq_ok_iff, JobContent.part_eq_error_iff,
    pure, Except.pure, reduceCtorEq, and_false, exists_false, or_false]
  constructor
  · rintro (⟨missing, rfl⟩ | ⟨_, passes, ⟨missing, rfl⟩ | ⟨_, colors, missing, rfl⟩⟩)
    · exact ⟨_, .passes missing, rfl⟩
    · exact ⟨_, .colors (Option.isSome_of_eq_some passes) missing, rfl⟩
    · exact ⟨_, .rasters (Option.isSome_of_eq_some passes) (Option.isSome_of_eq_some colors) missing,
        rfl⟩
  · rintro ⟨name, lacks, rfl⟩
    cases lacks with
    | passes missing => exact .inl ⟨missing, rfl⟩
    | colors passes missing =>
        obtain ⟨_, passes⟩ := Option.isSome_iff_exists.mp passes
        exact .inr ⟨_, passes, .inl ⟨missing, rfl⟩⟩
    | rasters passes colors missing =>
        obtain ⟨_, passes⟩ := Option.isSome_iff_exists.mp passes
        obtain ⟨_, colors⟩ := Option.isSome_iff_exists.mp colors
        exact .inr ⟨_, passes, .inr ⟨_, colors, missing, rfl⟩⟩

end JobDraft

/-- Whether a fault is the first one of a text.  The text is read first, then each
part has to be there, then rasters have to be valid, and then passes have to be
finite; in a list the fault with the lowest index is the first one. -/
inductive IsFirstFault (text : String) : ImportFault → Prop
  | unread {problem : Problem} (broken : draftOf text = .error problem) :
      IsFirstFault text (.json problem)
  | missing {draft : JobDraft} {name : String} (known : draftOf text = .ok draft)
      (lacks : draft.Lacks name) : IsFirstFault text (.missingKey name)
  | raster {draft : JobDraft} {document : JobContent} {before after : List Raster}
      {raster : Raster} {fault : RasterFault} (known : draftOf text = .ok draft)
      (parts : draft.HasParts document) (split : document.rasters = before ++ raster :: after)
      (first : ∀ other ∈ before, other.isValid) (invalid : raster.fault? = some fault) :
      IsFirstFault text (.invalidRaster before.length fault)
  | pass {draft : JobDraft} {document : JobContent} {before after : List Pass} {pass : Pass}
      (known : draftOf text = .ok draft) (parts : draft.HasParts document)
      (rasters : ∀ raster ∈ document.rasters, raster.isValid)
      (split : document.passes = before ++ pass :: after)
      (first : ∀ other ∈ before, other.isFinite) (infinite : pass.isFinite = false) :
      IsFirstFault text (.invalidPass before.length)

namespace JobContent

/-- A text is read as a document if it is a draft that has all parts. -/
theorem read_eq_ok_iff {text : String} {document : JobContent} :
    read text = .ok document ↔ ∃ draft, draftOf text = .ok draft ∧ draft.HasParts document := by
  change (draftOf text).mapError .json >>= JobDraft.content = _ ↔ _
  simp only [bind_eq_ok_iff, mapError_eq_ok_iff, JobDraft.content_eq_ok_iff]

/-- A text is not read as a document if it is no draft, or one that lacks a part. -/
theorem read_eq_error_iff {text : String} {fault : ImportFault} :
    read text = .error fault ↔
      (∃ problem, draftOf text = .error problem ∧ .json problem = fault) ∨
        ∃ draft, draftOf text = .ok draft ∧
          ∃ name, draft.Lacks name ∧ fault = .missingKey name := by
  change (draftOf text).mapError .json >>= JobDraft.content = _ ↔ _
  simp only [bind_eq_error_iff, mapError_eq_ok_iff, mapError_eq_error_iff,
    JobDraft.content_eq_error_iff]

/-- A document that does not pass the check has its first fault in a raster or, if
there is none, in a pass. -/
theorem isFirstFault_of_check {text : String} {document : JobContent} {fault : ImportFault}
    (taken : read text = .ok document) (refused : document.check = .error fault) :
    IsFirstFault text fault := by
  obtain ⟨draft, known, parts⟩ := read_eq_ok_iff.mp taken
  rcases check_eq_error_iff.mp refused with found | ⟨valid, found⟩
  · obtain ⟨before, raster, after, reason, split, first, invalid, rfl⟩ :=
      rasterFault?_eq_some_iff.mp found
    exact .raster known parts split first invalid
  · obtain ⟨before, pass, after, split, first, infinite, rfl⟩ :=
      passFault?_eq_some_iff.mp found
    exact .pass known parts (rasterFault?_eq_none_iff.mp valid) split first infinite

end JobContent

namespace Job

/-- A command on a job: what it has changed stays changed when it stops with an
error. -/
abbrev Command (ε α : Type) :=
  ExceptT ε (StateM Job) α

namespace Command

variable {ε α β : Type}

/-- What a command comes to for a job: its error or value, and the job as it is
then. -/
def perform (command : Command ε α) (job : Job) : Except ε α × Job :=
  command.run.run job

/-- A failed attempt ends a command, and the job is as it was. -/
theorem perform_ofExcept_bind (attempt : Except ε α) (next : α → Command ε β) (job : Job) :
    (MonadExcept.ofExcept attempt >>= next : Command ε β).perform job =
      match attempt with
      | .error fault => (.error fault, job)
      | .ok value => (next value).perform job := by
  cases attempt <;> rfl

end Command

/-- The import of a document, one field after the other. -/
def importDocument (text : String) : Command ImportFault Unit := do
  let document ← MonadExcept.ofExcept (JobContent.read text)
  MonadExcept.ofExcept document.check
  modify clear
  modify fun job => { job with passes := document.passes }
  modify fun job => { job with colors := document.colors }
  modify fun job => { job with rasters := document.rasters }
  match document.stats with
  | some stats => modify fun job => { job with stats := stats }
  | none => modify recompute

/-- The import of a machine program, its strokes before its pass. -/
def importProgram (text : String) : Command Machine.InvalidWord Unit := do
  let drawing ← MonadExcept.ofExcept (Machine.readProgram text)
  if drawing.paths.isEmpty then modify fun job => job.setPaths .empty
  else
    modify fun job => job.setPaths (.ofList [(drawingColor, drawing.paths)])
    modify fun job => job.addPass ⟨[drawingColor], drawing.feedrate.getD defaultFeedrate,
      (drawing.power.map Machine.intensityOfPower).getD defaultIntensity⟩

/-- What an attempt comes to for a job: its error and the job as it was, or the new
job. -/
def attempted {ε : Type} (job : Job) : Except ε Job → Except ε Unit × Job
  | .error fault => (.error fault, job)
  | .ok result => (.ok (), result)

/-- An import of a document changes a job at once or not at all. -/
theorem perform_importDocument (text : String) (job : Job) :
    (importDocument text).perform job = job.attempted (job.setDocument text) := by
  rw [importDocument, setDocument, Command.perform_ofExcept_bind]
  cases JobContent.read text with
  | error fault => rfl
  | ok document =>
      dsimp only
      rw [Command.perform_ofExcept_bind]
      simp only [bind, Except.bind]
      cases document.check with
      | error fault => rfl
      | ok =>
          simp only [pure, Except.pure, setContent]
          cases document.stats <;> rfl

/-- An import of a program changes a job at once or not at all. -/
theorem perform_importProgram (text : String) (job : Job) :
    (importProgram text).perform job = job.attempted (job.setProgram text) := by
  rw [importProgram, setProgram, Command.perform_ofExcept_bind]
  cases Machine.readProgram text with
  | error fault => rfl
  | ok drawing =>
      simp only [Except.map, setDrawing]
      split_ifs <;> rfl

/-- A document is refused for its first fault, whatever the job is. -/
theorem setDocument_eq_error_iff {job : Job} {text : String} {fault : ImportFault} :
    job.setDocument text = .error fault ↔ IsFirstFault text fault := by
  rw [setDocument, bind_eq_error_iff]
  constructor
  · rintro (refused | ⟨document, taken, refused⟩)
    · rcases JobContent.read_eq_error_iff.mp refused with
        ⟨problem, broken, rfl⟩ | ⟨draft, known, name, lacks, rfl⟩
      · exact .unread broken
      · exact .missing known lacks
    · rcases bind_eq_error_iff.mp refused with invalid | ⟨_, _, whole⟩
      · exact JobContent.isFirstFault_of_check taken invalid
      · cases whole
  · intro first
    cases first with
    | unread broken => exact .inl (JobContent.read_eq_error_iff.mpr (.inl ⟨_, broken, rfl⟩))
    | missing known lacks =>
        exact .inl (JobContent.read_eq_error_iff.mpr (.inr ⟨_, known, _, lacks, rfl⟩))
    | raster known parts split first invalid =>
        have found := JobContent.rasterFault?_eq_some_iff.mpr
          ⟨_, _, _, _, split, first, invalid, rfl⟩
        exact .inr ⟨_, JobContent.read_eq_ok_iff.mpr ⟨_, known, parts⟩,
          bind_eq_error_iff.mpr (.inl (JobContent.check_eq_error_iff.mpr (.inl found)))⟩
    | pass known parts valid split first infinite =>
        have fits := JobContent.rasterFault?_eq_none_iff.mpr valid
        have found := JobContent.passFault?_eq_some_iff.mpr ⟨_, _, _, split, first, infinite, rfl⟩
        exact .inr ⟨_, JobContent.read_eq_ok_iff.mpr ⟨_, known, parts⟩,
          bind_eq_error_iff.mpr (.inl (JobContent.check_eq_error_iff.mpr (.inr ⟨fits, found⟩)))⟩

/-- What a job takes from a document depends on nothing but its settings. -/
theorem setDocument_congr {job other : Job} (same : job.settings = other.settings)
    (text : String) : job.setDocument text = other.setDocument text := by
  have cleared : job.clear = other.clear := congrArg new same
  unfold setDocument setContent
  rw [cleared]

/-- What a job takes from a machine program depends on nothing but its settings. -/
theorem setProgram_congr {job other : Job} (same : job.settings = other.settings)
    (text : String) : job.setProgram text = other.setProgram text := by
  have cleared : job.clear = other.clear := congrArg new same
  unfold setProgram setDrawing setPaths
  rw [cleared]

/-- Whether two jobs take something alike, all or nothing.  Either it is refused for
both for a fault that is due, and a command that gives it to them leaves them as they
are; or no fault is due, and both become the same job. -/
inductive TakesAlike {ε : Type} (attempt : Job → Except ε Job) (command : Command ε Unit)
    (IsDue : ε → Prop) (job other : Job) : Prop
  | refused (fault : ε) (due : IsDue fault)
      (refusals : attempt job = .error fault ∧ attempt other = .error fault)
      (unchanged : command.perform job = (.error fault, job))
      (otherUnchanged : command.perform other = (.error fault, other))
  | taken (result : Job) (noneDue : ∀ fault, ¬ IsDue fault)
      (results : attempt job = .ok result ∧ attempt other = .ok result)
      (changed : command.perform job = (.ok (), result))
      (otherChanged : command.perform other = (.ok (), result))

/-- Jobs take something alike if the attempts come to the same and the command does
at once what an attempt comes to. -/
theorem takesAlike_of_attempted {ε : Type} {attempt : Job → Except ε Job}
    {command : Command ε Unit} {IsDue : ε → Prop} {job other : Job}
    (performs : ∀ job, command.perform job = job.attempted (attempt job))
    (due : ∀ fault, attempt job = .error fault ↔ IsDue fault)
    (same : attempt job = attempt other) : TakesAlike attempt command IsDue job other := by
  have first := performs job
  have second := performs other
  rw [← same] at second
  cases known : attempt job with
  | error fault =>
      rw [known] at first second
      exact .refused fault ((due fault).mp known) ⟨known, same.symm.trans known⟩ first second
  | ok result =>
      rw [known] at first second
      refine .taken result (fun fault is => ?_) ⟨known, same.symm.trans known⟩ first second
      cases known.symm.trans ((due fault).mpr is)

/-- Two jobs with the same settings take a document alike, and a machine program too,
whatever else they have: both refuse it for its first fault and are as they were, or
both become the same job. -/
theorem imports_allOrNothing {job other : Job} (same : job.settings = other.settings)
    (text : String) :
    TakesAlike (fun job => job.setDocument text) (importDocument text) (IsFirstFault text)
        job other ∧
      TakesAlike (fun job => job.setProgram text) (importProgram text)
        (fun fault => Machine.readProgram text = .error fault) job other := by
  constructor
  · exact takesAlike_of_attempted (perform_importDocument text)
      (fun fault => setDocument_eq_error_iff) (setDocument_congr same text)
  · refine takesAlike_of_attempted (perform_importProgram text) (fun fault => ?_)
      (setProgram_congr same text)
    rw [setProgram, map_eq_error_iff]

/-- A document whose second raster lacks a sample and whose first pass is infinite. -/
def faultyDocument : String :=
  String.join
    ["\x7b\"passes\":[\x7b\"colors\":[],", "\"feedrate\":\"inf\",\"intensity\":0\x7d],",
      "\"paths_by_color\":\x7b\x7d,\"rasters\":[", "\x7b\"pos\":[0,0],\"size_mm\":[1,1],",
      "\"size_px\":[1,1],\"image\":\"!\"\x7d,", "\x7b\"pos\":[0,0],\"size_mm\":[1,1],",
      "\"size_px\":[2,1],\"image\":\"!\"\x7d]\x7d"]

/-- A job with content and one without refuse the document for its second raster. -/
theorem imports_faultyDocument :
    sample.settings = (new .default).settings ∧
      IsFirstFault faultyDocument (.invalidRaster 1 (.length 2 1)) ∧
      TakesAlike (fun job => job.setDocument faultyDocument) (importDocument faultyDocument)
        (IsFirstFault faultyDocument) sample (new .default) := by
  have fault : ((new .default).setDocument faultyDocument).map (fun job => job.passes) =
      .error (.invalidRaster 1 (.length 2 1)) := by
    rw [setDocument, JobContent.read, Json.decode, faultyDocument, String.toList_join]
    decide +kernel
  have same : sample.settings = (new .default).settings := rfl
  exact ⟨same, setDocument_eq_error_iff.mp (map_eq_error_iff.mp fault),
    (imports_allOrNothing same faultyDocument).1⟩

end Job

end LaserCut
