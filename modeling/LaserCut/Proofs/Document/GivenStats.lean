/-
# Statistics that are written and read again

A document may carry statistics, and those are taken as they are.  JSON has no infinity: an
end of a box at infinity is written as `null`, and a `null` is read as infinity, so the ends
that fresh and spoiled boxes have come back, and with them the frame of the job.  A length
has no such word, and must be finite.
-/

import Mathlib
import LaserCut.Document.Shapes
import LaserCut.Machine.Program
import LaserCut.Proofs.Document.RoundTrip
import LaserCut.Proofs.Job.Outline

namespace LaserCut

open Json (ReadsAs ReadsFields)

/-- An end of a box that is read back: a number that is, or infinity. -/
def IsExchangedEnd (value : Float) : Prop :=
  IsExchanged value ∨ value = Scalar.infinity

instance (value : Float) : Decidable (IsExchanged value) :=
  inferInstanceAs (Decidable (_ ∧ _))

instance (value : Float) : Decidable (IsExchangedEnd value) :=
  inferInstanceAs (Decidable (_ ∨ _))

/-- An end of a box is read back, infinity as what is left out. -/
theorem IsExchangedEnd.reads {value : Float} (exchanged : IsExchangedEnd value) :
    ∃ back, ReadsAs (Json.readOption Json.readFloat) (.decimal value) back ∧
      back.getD Scalar.infinity = value := by
  rcases exchanged with number | rfl
  · exact ⟨some value, number.reads.option (by intro other h; cases h), rfl⟩
  · exact ⟨none, .null (by decide) _, rfl⟩

/-- Whether the ends of a box are read back. -/
structure Box.IsExchanged (box : Box Float) : Prop where
  minX : IsExchangedEnd box.minX
  minY : IsExchangedEnd box.minY
  maxX : IsExchangedEnd box.maxX
  maxY : IsExchangedEnd box.maxY

instance (box : Box Float) : Decidable box.IsExchanged :=
  decidable_of_iff (IsExchangedEnd box.minX ∧ IsExchangedEnd box.minY ∧
      IsExchangedEnd box.maxX ∧ IsExchangedEnd box.maxY)
    ⟨fun ⟨minX, minY, maxX, maxY⟩ => ⟨minX, minY, maxX, maxY⟩,
      fun ⟨minX, minY, maxX, maxY⟩ => ⟨minX, minY, maxX, maxY⟩⟩

/-- A box is read back. -/
theorem Box.reads {box : Box Float} (exchanged : box.IsExchanged) :
    ReadsAs Box.read box.toJson box := by
  obtain ⟨minX, readsMinX, sameMinX⟩ := exchanged.minX.reads
  obtain ⟨minY, readsMinY, sameMinY⟩ := exchanged.minY.reads
  obtain ⟨maxX, readsMaxX, sameMaxX⟩ := exchanged.maxX.reads
  obtain ⟨maxY, readsMaxY, sameMaxY⟩ := exchanged.maxY.reads
  have ends : ReadsAs (Json.readVector 4 _) box.toJson _ := ReadsAs.vector
    (.cons readsMinX (.cons readsMinY (.cons readsMaxX (.cons readsMaxY .nil)))) rfl
  refine ends.bind ?_
  simp [sameMinX, sameMinY, sameMaxX, sameMaxY]
  rfl

/-- Whether the numbers of a scope are read back. -/
structure Scope.IsExchanged (scope : Scope Float) : Prop where
  box : scope.box.IsExchanged
  length : LaserCut.IsExchanged scope.length

instance (scope : Scope Float) : Decidable scope.IsExchanged :=
  decidable_of_iff (scope.box.IsExchanged ∧ LaserCut.IsExchanged scope.length)
    ⟨fun ⟨box, length⟩ => ⟨box, length⟩, fun ⟨box, length⟩ => ⟨box, length⟩⟩

/-- A scope is read back. -/
theorem Scope.reads {scope : Scope Float} (exchanged : scope.IsExchanged) :
    ReadsAs Scope.read scope.toJson scope := by
  have fields : ReadsFields scopeKind ⟨none, none⟩ [("bbox", _), ("length", _)] ⟨some _, some _⟩ :=
    .cons rfl rfl ((Box.reads exchanged.box).map _) <|
      .cons rfl rfl (exchanged.length.reads.map _) <| .nil _
  exact fields.reads.bind rfl

/-- Statistics are read back, scope for scope. -/
theorem Stats.reads {stats : Stats} (exchanged : ∀ entry ∈ stats.entries, entry.2.IsExchanged) :
    ReadsAs Stats.read stats.toJson stats := by
  apply ReadsAs.keyed
  rw [List.forall₂_map_left_iff, List.forall₂_same]
  exact fun entry inside => ⟨rfl, Scope.reads (exchanged entry inside)⟩

/-- An object with one more member at its end. -/
def Json.withMember (json : Json) (key : String) (value : Json) : Json :=
  match json with
  | .object members => .object (members ++ [(key, value)])
  | other => other

namespace Job

variable {job : Job}

/-- The document of a job with its statistics is read as its content and these statistics. -/
theorem read_withStats (valid : job.HasValidRasters) (exchanged : job.IsExchanged)
    (scopes : ∀ entry ∈ job.stats.entries, entry.2.IsExchanged) (excluded : List String) :
    ∃ passes, List.Forall₂ Pass.Agrees passes job.passes ∧
      JobContent.read ((job.toJson excluded).withMember "stats" job.stats.toJson).toCompact =
        .ok ⟨passes, job.keptColors excluded, job.rasters, some job.stats⟩ := by
  obtain ⟨passes, members, agree, known, fields⟩ := readsFields_toJson valid exchanged excluded
  have stats := (Stats.reads scopes).option (by intro other h; cases h)
  have last (draft : JobDraft) (unset : draft.stats = none) :
      ReadsFields jobKind draft [("stats", job.stats.toJson)]
        { draft with stats := some (some job.stats) } :=
    .cons rfl (congrArg Option.isSome unset) (stats.map _) (.nil _)
  rw [known]
  exact ⟨passes, agree, read_of_readsFields (fields.append (last _ rfl))⟩

/-- Passes that agree use the same colors. -/
theorem passColors_of_agree {other : Job}
    (agree : List.Forall₂ Pass.Agrees other.passes job.passes) :
    other.passColors = job.passColors := by
  have colors : other.passes.map Pass.colors = job.passes.map Pass.colors := by
    rw [← List.forall₂_eq_eq_eq, List.forall₂_map_left_iff, List.forall₂_map_right_iff]
    exact agree.imp fun _ _ same => same.colors
  rw [passColors, passColors, List.flatMap_def, List.flatMap_def, colors]

/-- A job takes the document of any other one with its statistics, and then has these
statistics, whatever strokes were excluded: the frame of the whole, the box of the passes and
their length are the same, bit for bit. -/
theorem setDocument_withStats (job receiver : Job) (excluded : List String)
    (valid : job.HasValidRasters) (exchanged : job.IsExchanged)
    (computed : ∃ colors rasters runway, job.stats = .compute colors rasters runway)
    (scopes : ∀ entry ∈ job.stats.entries, entry.2.IsExchanged) :
    ∃ result, receiver.setDocument
        ((job.toJson excluded).withMember "stats" job.stats.toJson).toCompact = .ok result ∧
      result.stats = job.stats ∧
      (∀ machine, Machine.encodeFrame machine result = Machine.encodeFrame machine job) ∧
      result.passBox = job.passBox ∧ result.passLength = job.passLength := by
  obtain ⟨passes, agree, read⟩ := read_withStats valid exchanged scopes excluded
  obtain ⟨result, known⟩ : ∃ result, receiver.setContent
      ⟨passes, job.keptColors excluded, job.rasters, some job.stats⟩ = result := ⟨_, rfl⟩
  have stats : result.stats = job.stats := known ▸ rfl
  have agrees : List.Forall₂ Pass.Agrees result.passes job.passes := known ▸ agree
  have passScopes : result.passScopes = job.passScopes := by
    rw [Job.passScopes, Job.passScopes, passColors_of_agree agrees, stats]
  -- computed statistics have a whole, so neither job computes it from its strokes
  have whole : result.wholeStats = job.wholeStats := by
    obtain ⟨colors, rasters, runway, fresh⟩ := computed
    rw [wholeStats, wholeStats, stats, fresh, Stats.whole?_compute, Option.getD_some,
      Option.getD_some]
  refine ⟨result, ?_, stats, fun machine => ?_, ?_, ?_⟩
  · rw [setDocument_of_read valid exchanged read rfl agree receiver, known]
  · rw [Machine.encodeFrame, Machine.encodeFrame, Machine.frameInstructions,
      Machine.frameInstructions, whole]
  · rw [passBox, passBox, passScopes]
  · rw [passLength, passLength, passScopes]

/-- The sample job with a stroke that has no line, which spoils the box of the whole. -/
def spoiledSample : Job :=
  { sample with colors := ⟨[("#000000", [[⟨5, 6⟩]])], by decide⟩ }.recompute

/-- The statistics of this job have a fresh box, a finite one and a spoiled one. -/
theorem entries_stats_spoiledSample : spoiledSample.stats.entries =
    [("#000000", ⟨.empty, 0⟩),
      (Stats.rastersName, ⟨⟨-39.5, 0.25, 42.5, 1.25⟩, 164⟩),
      (Stats.wholeName, ⟨⟨-39.5, 0, Scalar.infinity, Scalar.infinity⟩, 164⟩)] := by
  decide +kernel

theorem spoiledSample_isExchanged : spoiledSample.IsExchanged := by
  refine ⟨?_, sample_isExchanged.rasters, sample_isExchanged.passes⟩
  unfold Point.IsExchanged
  decide +kernel

/-- Another job takes this one with its statistics, without the strokes, and has the same
frame. -/
theorem setDocument_spoiledSample :
    spoiledSample.passBox = ⟨0, 0, Scalar.infinity, Scalar.infinity⟩ ∧
      ∃ result, (new .default).setDocument ((spoiledSample.toJson ["#000000"]).withMember "stats"
          spoiledSample.stats.toJson).toCompact = .ok result ∧
        result.stats = spoiledSample.stats ∧
        (∀ machine, Machine.encodeFrame machine result =
          Machine.encodeFrame machine spoiledSample) ∧
        result.passBox = spoiledSample.passBox ∧
        result.passLength = spoiledSample.passLength := by
  have scopes : ∀ entry ∈ spoiledSample.stats.entries, entry.2.IsExchanged := by
    rw [entries_stats_spoiledSample]
    decide +kernel
  have computed : ∃ colors rasters runway, spoiledSample.stats = .compute colors rasters runway :=
    ⟨spoiledSample.colors, spoiledSample.rasters, spoiledSample.settings.rasterOffset, rfl⟩
  exact ⟨by decide +kernel, setDocument_withStats spoiledSample (new .default) ["#000000"]
    sample_hasValidRasters spoiledSample_isExchanged computed scopes⟩

end Job

end LaserCut
