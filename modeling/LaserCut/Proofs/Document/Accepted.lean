/-
# Jobs of accepted documents

A document that is accepted has finite numbers and valid rasters only.  Numbers of
strokes and rasters are finite because a number that no double can hold is refused
where it stands.  A value of a pass may also be a text, and a text may name an
infinity or overflow to one, so passes are checked.

So such a job can be written again without a `null`, and its program is read without
an error.
-/

import Mathlib
import LaserCut.Proofs.Document.Check
import LaserCut.Proofs.Document.Parts
import LaserCut.Proofs.Job.History
import LaserCut.Proofs.Json.Results
import LaserCut.Proofs.Machine.Settled

namespace LaserCut

open Attempt
open Json (Yields)

/-- A point that is read is finite. -/
theorem Point.yields_read : Yields Point.read fun point => point.IsFinite := by
  refine Json.yields_readFloat.list.bind fun coordinates point finite taken => ?_
  split at taken
  · next x y rest =>
      cases taken
      exact ⟨finite x (by simp), finite y (by simp)⟩
  · cases taken

/-- Strokes that are read are finite. -/
theorem Path.yields_read : Yields Path.read fun path => ∀ point ∈ path, point.IsFinite :=
  Point.yields_read.list

/-- Whether the position and the size of a raster are finite. -/
structure Raster.IsFinite (raster : Raster) : Prop where
  position : raster.position.IsFinite
  widthMm : raster.widthMm.isFinite
  heightMm : raster.heightMm.isFinite

/-- Two numbers that are read are finite. -/
theorem yields_readPair :
    Yields (readPair Json.readFloat) fun pair => pair.1.isFinite ∧ pair.2.isFinite := by
  refine (Json.yields_readFloat.vector 2).bind fun pair result finite taken => ?_
  cases taken
  exact ⟨finite _ (by simp), finite _ (by simp)⟩

/-- Whether the numbers that a draft of a raster has are finite. -/
structure RasterDraft.IsFinite (draft : RasterDraft) : Prop where
  position : ∀ pair, draft.position = some pair → pair.1.isFinite ∧ pair.2.isFinite
  sizeMm : ∀ pair, draft.sizeMm = some pair → pair.1.isFinite ∧ pair.2.isFinite

/-- Every field of a raster keeps its numbers finite. -/
theorem rasterKind_keeps : rasterKind.Keeps RasterDraft.IsFinite := by
  simp only [Json.RecordKind.Keeps, rasterKind, List.forall_mem_cons]
  refine ⟨fun draft finite => ?_, fun draft finite => ?_, fun draft finite => ?_,
    fun draft finite => ?_, List.forall_mem_nil _⟩
  · exact yields_readPair.map fun pair known =>
      ⟨fun _ same => Option.some.inj same ▸ known, finite.sizeMm⟩
  · exact yields_readPair.map fun pair known =>
      ⟨finite.position, fun _ same => Option.some.inj same ▸ known⟩
  · exact Yields.trivial.map fun _ _ => ⟨finite.position, finite.sizeMm⟩
  · exact Yields.trivial.map fun _ _ => ⟨finite.position, finite.sizeMm⟩

/-- A part of a record that is there has been read. -/
theorem Json.required_eq_ok {α : Type} {name : String} {part : Option α} {value : α}
    (known : Json.required name part = .ok value) : part = some value := by
  cases part with
  | none => cases known
  | some other => exact congrArg some (Except.ok.inj known)

/-- A raster that is read is finite. -/
theorem Raster.yields_read : Yields Raster.read Raster.IsFinite := by
  have blank : RasterDraft.IsFinite ⟨none, none, none, none⟩ :=
    ⟨fun _ absent => (by cases absent), fun _ absent => (by cases absent)⟩
  refine (rasterKind_keeps.yields blank).bind fun draft raster finite taken => ?_
  obtain ⟨⟨x, y⟩, position, taken⟩ := bind_eq_ok_iff.mp taken
  obtain ⟨⟨width, height⟩, sizeMm, taken⟩ := bind_eq_ok_iff.mp taken
  obtain ⟨⟨_, _⟩, -, taken⟩ := bind_eq_ok_iff.mp taken
  obtain ⟨_, -, taken⟩ := bind_eq_ok_iff.mp taken
  cases taken
  have corner := finite.position _ (Json.required_eq_ok position)
  have size := finite.sizeMm _ (Json.required_eq_ok sizeMm)
  exact ⟨corner, size.1, size.2⟩

/-- Whether the numbers of the strokes and rasters that a draft has are finite. -/
structure JobDraft.IsFinite (draft : JobDraft) : Prop where
  colors : ∀ colors, draft.colors.join = some colors →
    ∀ entry ∈ colors.entries, ∀ path ∈ entry.2, ∀ point ∈ path, point.IsFinite
  rasters : ∀ rasters, draft.rasters.join = some rasters → ∀ raster ∈ rasters, raster.IsFinite

/-- Every field of a document keeps the numbers of strokes and rasters finite. -/
theorem jobKind_keeps : jobKind.Keeps JobDraft.IsFinite := by
  simp only [Json.RecordKind.Keeps, jobKind, List.forall_mem_cons]
  refine ⟨fun draft finite => ?_, fun draft finite => ?_, fun draft finite => ?_,
    fun draft finite => ?_, List.forall_mem_nil _⟩
  · exact Yields.trivial.map fun _ _ => ⟨finite.colors, finite.rasters⟩
  · exact Path.yields_read.list.keyed.option.map fun _ known => ⟨known, finite.rasters⟩
  · exact Raster.yields_read.list.option.map fun _ known => ⟨finite.colors, known⟩
  · exact Yields.trivial.map fun _ _ => ⟨finite.colors, finite.rasters⟩

namespace JobContent

/-- A document that is read has finite strokes and rasters. -/
theorem isFinite_of_read {text : String} {document : JobContent}
    (taken : read text = .ok document) :
    (∀ entry ∈ document.colors.entries, ∀ path ∈ entry.2, ∀ point ∈ path, point.IsFinite) ∧
      ∀ raster ∈ document.rasters, raster.IsFinite := by
  have blank : JobDraft.IsFinite ⟨none, none, none, none⟩ :=
    ⟨fun _ absent => (by cases absent), fun _ absent => (by cases absent)⟩
  obtain ⟨draft, known, taken⟩ := bind_eq_ok_iff.mp taken
  have finite := (jobKind_keeps.yields blank).decode (mapError_eq_ok_iff.mp known)
  obtain ⟨_, -, taken⟩ := bind_eq_ok_iff.mp taken
  obtain ⟨colors, hasColors, taken⟩ := bind_eq_ok_iff.mp taken
  obtain ⟨rasters, hasRasters, taken⟩ := bind_eq_ok_iff.mp taken
  cases taken
  exact ⟨finite.colors colors (part_eq_ok_iff.mp hasColors),
    finite.rasters rasters (part_eq_ok_iff.mp hasRasters)⟩

end JobContent

namespace Json

/-- Whether a value is written without a `null`: it has none, and every number in it has
digits. -/
inductive HasNoNull : Json → Prop
  | integer (value : Int) : HasNoNull (.integer value)
  | decimal {value : Float} (digits : renderDecimal value ≠ "null".toList) :
      HasNoNull (.decimal value)
  | string (value : String) : HasNoNull (.string value)
  | array {items : List Json} (each : ∀ item ∈ items, HasNoNull item) : HasNoNull (.array items)
  | object {members : List (String × Json)} (each : ∀ member ∈ members, HasNoNull member.2) :
      HasNoNull (.object members)

/-- A finite number is written with digits. -/
theorem HasNoNull.of_isFinite {value : Float} (finite : value.isFinite) :
    HasNoNull (.decimal value) := by
  refine .decimal fun same => ?_
  have inside : 'n' ∈ renderDecimal value := same ▸ by decide
  have letter : ¬ Decimal.IsNumeric 'n' := by simp [Decimal.IsNumeric]
  exact letter (isNumeric_of_mem_renderDecimal finite inside)

end Json

open Json (HasNoNull)

/-- A value of a pass is written as an integer or as a double. -/
theorem hasNoNull_passNumberJson {value : Float} (finite : value.isFinite) :
    (passNumberJson value).HasNoNull := by
  unfold passNumberJson
  split
  · split_ifs
    · exact .integer _
    · exact .of_isFinite finite
  · exact .of_isFinite finite

/-- Members are written without a `null` if each of their values is. -/
theorem Pass.hasNoNull_toJson {pass : Pass} (finite : pass.isFinite) : pass.toJson.HasNoNull := by
  obtain ⟨feedrate, intensity⟩ := Bool.and_eq_true_iff.mp finite
  have colors : HasNoNull (.array (pass.colors.map .string)) :=
    .array (List.forall_mem_map.mpr fun color _ => .string color)
  refine .object ?_
  simp only [List.forall_mem_cons]
  exact ⟨colors, hasNoNull_passNumberJson feedrate, hasNoNull_passNumberJson intensity,
    List.forall_mem_nil _⟩

/-- A finite point is written without a `null`. -/
theorem Point.hasNoNull_toJson {point : Point Float} (finite : point.IsFinite) :
    point.toJson.HasNoNull := by
  refine .array ?_
  simp only [List.forall_mem_cons]
  exact ⟨.of_isFinite finite.1, .of_isFinite finite.2, List.forall_mem_nil _⟩

/-- A finite raster is written without a `null`. -/
theorem Raster.hasNoNull_toJson {raster : Raster} (finite : raster.IsFinite) :
    raster.toJson.HasNoNull := by
  refine .object ?_
  simp only [List.forall_mem_cons]
  refine ⟨Point.hasNoNull_toJson finite.position, .array ?_, .array ?_, .string _,
    List.forall_mem_nil _⟩
  · simp only [List.forall_mem_cons]
    exact ⟨.of_isFinite finite.widthMm, .of_isFinite finite.heightMm, List.forall_mem_nil _⟩
  · simp only [List.forall_mem_cons]
    exact ⟨.integer _, .integer _, List.forall_mem_nil _⟩

namespace Job

/-- Whether all numbers of a job are finite and its rasters are valid. -/
structure IsFinite (job : Job) : Prop where
  strokes : job.HasFinitePaths
  rasters : ∀ raster ∈ job.rasters, raster.IsFinite
  passes : ∀ pass ∈ job.passes, pass.isFinite
  valid : job.HasValidRasters

namespace IsFinite

variable {job : Job}

/-- A job of finite numbers is written without a `null`, whichever colors are excluded. -/
theorem hasNoNull_toJson (finite : job.IsFinite) (excluded : List String) :
    (job.toJson excluded).HasNoNull := by
  refine .object ?_
  simp only [List.forall_mem_cons]
  refine ⟨.array ?_, .object ?_, .array ?_, List.forall_mem_nil _⟩
  · exact List.forall_mem_map.mpr fun pass inside =>
      Pass.hasNoNull_toJson (finite.passes pass inside)
  · refine List.forall_mem_map.mpr fun entry inside => ?_
    refine .array (List.forall_mem_map.mpr fun path within => ?_)
    refine .array (List.forall_mem_map.mpr fun point listed => ?_)
    exact Point.hasNoNull_toJson
      (finite.strokes entry (List.mem_of_mem_filter inside) path within point listed)
  · exact List.forall_mem_map.mpr fun raster inside =>
      Raster.hasNoNull_toJson (finite.rasters raster inside)

end IsFinite

/-- The content of a document becomes that of a job. -/
theorem content_setContent (job : Job) (document : JobContent) :
    (job.setContent document).colors = document.colors ∧
      (job.setContent document).passes = document.passes := by
  unfold setContent
  cases document.stats <;> exact ⟨rfl, rfl⟩

/-- A job of an accepted document is finite. -/
theorem isFinite_of_ofDocument {text : String} {settings : Settings} {job : Job}
    (accepted : ofDocument text settings = .ok job) : job.IsFinite := by
  obtain ⟨document, taken, checked, rfl⟩ := setDocument_eq_ok accepted
  obtain ⟨colors, passes⟩ := content_setContent (new settings) document
  have rasters := rasters_setContent (new settings) document
  have read := JobContent.isFinite_of_read taken
  have check := JobContent.check_eq_ok_iff.mp checked
  constructor
  · rw [HasFinitePaths, colors]
    exact read.1
  · rw [rasters]
    exact read.2
  · rw [passes]
    exact check.2
  · rw [HasValidRasters, rasters]
    exact check.1

/-- A document with a pass that is not finite is refused, so every job of a document has
finite numbers and valid rasters.  It is written without a `null`, and the program that
is made for it with any settings is read without an error. -/
theorem ofDocument_isFinite (text : String) (settings : Settings) :
    (∀ document, JobContent.read text = .ok document →
      (∃ pass ∈ document.passes, pass.isFinite = false) →
      ∃ fault, ofDocument text settings = .error fault) ∧
    ∀ job, ofDocument text settings = .ok job →
      job.IsFinite ∧ (∀ excluded, (job.toJson excluded).HasNoNull) ∧
        ∀ machine, ∃ drawing, Machine.readProgram (Machine.encode machine job) = .ok drawing := by
  constructor
  · rintro document taken ⟨pass, inside, infinite⟩
    cases known : ofDocument text settings with
    | error fault => exact ⟨fault, rfl⟩
    | ok job =>
        obtain ⟨other, again, checked, -⟩ := setDocument_eq_ok known
        cases taken.symm.trans again
        have finite := (JobContent.check_eq_ok_iff.mp checked).2 pass inside
        rw [infinite] at finite
        cases finite
  · intro job accepted
    have finite := isFinite_of_ofDocument accepted
    have positions : job.HasFiniteRasters := fun raster inside =>
      (finite.rasters raster inside).position
    exact ⟨finite, finite.hasNoNull_toJson, fun machine =>
      ⟨_, Machine.readProgram_encode_ok machine finite.strokes positions finite.valid⟩⟩

/-- A document with a raster, a stroke and a pass, whose feedrate is a text. -/
def documentOf (feedrate : String) : String :=
  String.join
    ["\x7b\"rasters\":[\x7b\"pos\":[0,1.5],", "\"size_mm\":[1e-2,1],", "\"size_px\":[1,1],",
      "\"image\":\"!\"\x7d],", "\"paths_by_color\":\x7b\"#ff0000\":", "[[[0,-0.5],[25,1e2]]]\x7d,",
      "\"passes\":[\x7b\"colors\":[],", "\"intensity\":50,\"feedrate\":\"", feedrate, "\"\x7d]\x7d"]

/-- A feedrate has to be a text of a finite number. -/
theorem ofDocument_documentOf :
    (∃ job, ofDocument (documentOf " 1.2e3 ") .default = .ok job ∧ job.IsFinite ∧
      (∀ excluded, (job.toJson excluded).HasNoNull) ∧
      ∀ machine, ∃ drawing, Machine.readProgram (Machine.encode machine job) = .ok drawing) ∧
    ∀ feedrate ∈ ["inf", "-Infinity", "NaN", "1e999"],
      ∃ fault, ofDocument (documentOf feedrate) .default = .error fault := by
  constructor
  · have accepted : (ofDocument (documentOf " 1.2e3 ") .default).toOption.isSome = true := by
      rw [ofDocument, setDocument, JobContent.read, Json.decode, documentOf, String.toList_join]
      decide +kernel
    cases known : ofDocument (documentOf " 1.2e3 ") .default with
    | error fault =>
        rw [known] at accepted
        cases accepted
    | ok job => exact ⟨job, rfl, (ofDocument_isFinite _ _).2 job known⟩
  · have infinite : ∀ feedrate ∈ ["inf", "-Infinity", "NaN", "1e999"],
        ((JobContent.read (documentOf feedrate)).toOption.any fun document =>
          document.passes.any fun pass => !pass.isFinite) = true := by
      simp only [JobContent.read, Json.decode, documentOf, String.toList_join]
      decide +kernel
    intro feedrate listed
    have spoiled := infinite feedrate listed
    cases taken : JobContent.read (documentOf feedrate) with
    | error fault =>
        rw [taken] at spoiled
        cases spoiled
    | ok document =>
        rw [taken] at spoiled
        obtain ⟨pass, inside, unbounded⟩ := List.any_eq_true.mp spoiled
        exact (ofDocument_isFinite _ _).1 document taken ⟨pass, inside, by simpa using unbounded⟩

end Job

end LaserCut
