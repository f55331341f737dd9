/-
# A job that is written and read again

A job that takes the document of another one has its content afterwards: the
strokes of the colors that were not excluded, all rasters and all passes.  The
statistics are not in the document and follow from the content and from the
settings of the job that takes it.
-/

import Mathlib
import LaserCut.Proofs.Document.Check
import LaserCut.Proofs.Document.Parts
import LaserCut.Proofs.Job.Content

namespace LaserCut

open Json (ReadsAs ReadsFields)

namespace Job

/-- Every number of a job is finite and read back from its text. -/
structure IsExchanged (job : Job) : Prop where
  strokes : ∀ entry ∈ job.colors.entries, ∀ path ∈ entry.2, ∀ point ∈ path, point.IsExchanged
  rasters : ∀ raster ∈ job.rasters, raster.IsExchanged
  passes : ∀ pass ∈ job.passes, Pass.IsExchanged pass.feedrate ∧ Pass.IsExchanged pass.intensity

/-- The strokes that a document of a job has. -/
def keptColors (job : Job) (excluded : List String) : ColorPaths :=
  job.colors.filterKeys fun color => !excluded.contains color

/-- The passes of a job are read back in their order. -/
theorem reads_passes {passes : List Pass} (exchanged : ∀ pass ∈ passes,
    Pass.IsExchanged pass.feedrate ∧ Pass.IsExchanged pass.intensity) (outer : Nat) :
    ∃ back, ReadsAs (Json.readList (Pass.read outer)) (.array (passes.map Pass.toJson)) back ∧
      List.Forall₂ Pass.Agrees back passes := by
  have each : ∃ back, List.Forall₂ (ReadsAs (Pass.read outer)) (passes.map Pass.toJson) back ∧
      List.Forall₂ Pass.Agrees back passes := by
    induction passes with
    | nil => exact ⟨[], .nil, .nil⟩
    | cons pass passes ih =>
        obtain ⟨first, others⟩ := List.forall_mem_cons.mp exchanged
        obtain ⟨back, reads, agrees⟩ := Pass.reads first.1 first.2 outer
        obtain ⟨rest, readsRest, agreeRest⟩ := ih others
        exact ⟨back :: rest, .cons reads readsRest, .cons agrees agreeRest⟩
  obtain ⟨back, reads, agree⟩ := each
  exact ⟨back, ReadsAs.list reads, agree⟩

/-- Passes that agree with finite ones are finite. -/
theorem isFinite_of_agree {passes originals : List Pass}
    (agree : List.Forall₂ Pass.Agrees passes originals)
    (finite : ∀ pass ∈ originals, pass.isFinite) : ∀ pass ∈ passes, pass.isFinite := by
  induction agree with
  | nil => exact finite
  | @cons pass original passes originals same _ ih =>
      obtain ⟨first, others⟩ := List.forall_mem_cons.mp finite
      rw [Pass.isFinite, Bool.and_eq_true] at first
      refine List.forall_mem_cons.mpr ⟨?_, ih others⟩
      rw [Pass.isFinite, Bool.and_eq_true]
      exact ⟨Decimal.isFinite_of_beq same.feedrate.2 first.1,
        Decimal.isFinite_of_beq same.intensity.2 first.2⟩

/-- The strokes of a job are read back under their colors. -/
theorem reads_colors {colors : ColorPaths} (exchanged : ∀ entry ∈ colors.entries,
    ∀ path ∈ entry.2, ∀ point ∈ path, point.IsExchanged) :
    ReadsAs (Json.readMap (Json.readList Path.read))
      (.object (colors.entries.map fun entry => (entry.1, .array (entry.2.map Path.toJson))))
      colors := by
  apply ReadsAs.keyed
  rw [List.forall₂_map_left_iff, List.forall₂_same]
  intro entry inside
  exact ⟨rfl, ReadsAs.list_map fun path member => Path.reads (exchanged entry inside path member)⟩

/-- The members of the document of a job are read as its passes, the strokes that are not
excluded, and its rasters. -/
theorem readsFields_toJson {job : Job} (valid : job.HasValidRasters) (exchanged : job.IsExchanged)
    (excluded : List String) :
    ∃ passes members, List.Forall₂ Pass.Agrees passes job.passes ∧
      job.toJson excluded = .object members ∧
      ReadsFields jobKind ⟨none, none, none, none⟩ members ⟨some (some passes),
        some (some (job.keptColors excluded)), some (some job.rasters), none⟩ := by
  obtain ⟨passes, readsPasses, agree⟩ := reads_passes exchanged.passes 2
  have colors := @reads_colors (job.keptColors excluded) fun entry inside =>
    exchanged.strokes entry (List.mem_of_mem_filter inside)
  have rasters := ReadsAs.list_map fun raster inside =>
    Raster.reads (valid raster inside) (exchanged.rasters raster inside)
  have fields : ReadsFields jobKind ⟨none, none, none, none⟩
      [("passes", _), ("paths_by_color", _), ("rasters", _)]
      ⟨some (some _), some (some _), some (some _), none⟩ :=
    .cons rfl rfl ((readsPasses.option (by intro other h; cases h)).map _) <|
      .cons rfl rfl ((colors.option (by intro other h; cases h)).map _) <|
      .cons rfl rfl ((rasters.option (by intro other h; cases h)).map _) <| .nil _
  exact ⟨passes, _, agree, rfl, fields⟩

/-- Members that are read with all their parts are a document. -/
theorem read_of_readsFields {members : List (String × Json)} {passes : List Pass}
    {colors : ColorPaths} {rasters : List Raster} {stats : Option (Option Stats)}
    (fields : ReadsFields jobKind ⟨none, none, none, none⟩ members
      ⟨some (some passes), some (some colors), some (some rasters), stats⟩) :
    JobContent.read (Json.object members).toCompact =
      .ok ⟨passes, colors, rasters, stats.join⟩ := by
  rw [JobContent.read, fields.reads.decode]
  rfl

/-- The document of a job is read as the content that it was written from. -/
theorem read_toJson {job : Job} (valid : job.HasValidRasters) (exchanged : job.IsExchanged)
    (excluded : List String) :
    ∃ passes, List.Forall₂ Pass.Agrees passes job.passes ∧
      JobContent.read (job.toJson excluded).toCompact =
        .ok ⟨passes, job.keptColors excluded, job.rasters, none⟩ := by
  obtain ⟨passes, members, agree, known, fields⟩ := readsFields_toJson valid exchanged excluded
  rw [known]
  exact ⟨passes, agree, read_of_readsFields fields⟩

/-- A document with the rasters of a job and passes that agree with its passes is taken. -/
theorem setDocument_of_read {job : Job} (valid : job.HasValidRasters) (exchanged : job.IsExchanged)
    {text : String} {content : JobContent} (read : JobContent.read text = .ok content)
    (rasters : content.rasters = job.rasters)
    (agree : List.Forall₂ Pass.Agrees content.passes job.passes) (receiver : Job) :
    receiver.setDocument text = .ok (receiver.setContent content) := by
  have finite : ∀ pass ∈ content.passes, pass.isFinite :=
    isFinite_of_agree agree fun pass inside => by
      have values := exchanged.passes pass inside
      rw [Pass.isFinite, values.1.1, values.2.1, Bool.and_self]
  have checked : content.check = .ok () :=
    JobContent.check_eq_ok_iff.mpr ⟨rasters ▸ valid, finite⟩
  rw [setDocument, read]
  simp only [bind, Except.bind, checked]
  rfl

/-- A job takes the document of any other one and has its content afterwards,
without the strokes of the excluded colors. -/
theorem setDocument_toJson (job receiver : Job) (excluded : List String)
    (valid : job.HasValidRasters) (exchanged : job.IsExchanged) :
    ∃ result, receiver.setDocument (job.toJson excluded).toCompact = .ok result ∧
      result.colors.entries = job.colors.entries.filter (fun entry => entry.1 ∉ excluded) ∧
      result.rasters = job.rasters ∧
      List.Forall₂ Pass.Agrees result.passes job.passes ∧
      result.settings = receiver.settings ∧
      result.stats = .compute result.colors result.rasters receiver.settings.rasterOffset := by
  obtain ⟨passes, agree, read⟩ := read_toJson valid exchanged excluded
  refine ⟨_, setDocument_of_read valid exchanged read rfl agree receiver, ?_, rfl, agree, rfl, rfl⟩
  change List.filter _ _ = List.filter _ _
  simp

theorem sample_isExchanged : sample.IsExchanged := by
  have numbers : ∀ value ∈ [1.5, 2, 3, 4.25, 5, 6, 0.5, 0.25, 1], value.isFinite = true ∧
      Json.decode Json.readFloat (Json.decimal value).toCompact = .ok value := by
    decide +kernel
  have values : ∀ value ∈ [1200, 50, 0, 200], value.isFinite = true ∧
      Json.decode (readPassNumber 0) (passNumberJson value).toCompact = .ok value ∧
        (value == value) = true := by
    decide +kernel
  have number (value : Float) (listed : value ∈ [1.5, 2, 3, 4.25, 5, 6, 0.5, 0.25, 1]) :
      LaserCut.IsExchanged value :=
    numbers value listed
  have value (value : Float) (listed : value ∈ [1200, 50, 0, 200]) : Pass.IsExchanged value :=
    ⟨(values value listed).1, value, (values value listed).2⟩
  constructor
  · simp [sample, Point.IsExchanged, number]
  · intro raster inside
    rw [List.mem_singleton.mp inside]
    exact ⟨⟨number _ (by simp), number _ (by simp)⟩, number _ (by simp), number _ (by simp)⟩
  · simp [sample, value]

/-- The sample job is taken although a pass names a color without strokes. -/
theorem setDocument_sample :
    sample.HasValidRasters ∧ sample.IsExchanged ∧
      ∃ result, (new .default).setDocument (sample.toJson ["#ff0000"]).toCompact = .ok result ∧
        result.colors.entries = sample.colors.entries.filter (fun entry => entry.1 ∉ ["#ff0000"]) ∧
        result.rasters = sample.rasters ∧
        List.Forall₂ Pass.Agrees result.passes sample.passes ∧
        result.settings = .default ∧
        result.stats = .compute result.colors result.rasters Settings.default.rasterOffset :=
  ⟨sample_hasValidRasters, sample_isExchanged,
    setDocument_toJson sample (new .default) ["#ff0000"] sample_hasValidRasters sample_isExchanged⟩

end Job

end LaserCut
