/-
# The instructions of a job

Whatever the passes ask for, the program of a job is readable once coordinates
and raster positions are finite, and its data lines hold samples once its
rasters are valid.
-/

import Mathlib
import LaserCut.Proofs.Machine.DataLines
import LaserCut.Proofs.Machine.Lines

namespace LaserCut.Machine

/-- What holds of every line of a raster row: of its data lines and of the line
that ends it. -/
theorem forall_mem_rowInstructions {width : Nat} {row : List UInt8} {p : Instruction → Prop}
    (samples : ∀ piece ∈ chunks width row, p (.samples piece)) (nextRow : p .nextRow) :
    ∀ instruction ∈ rowInstructions width row, p instruction := by
  intro instruction inside
  rcases List.mem_append.mp inside with data | ending
  · obtain ⟨piece, listed, rfl⟩ := List.mem_map.mp data
    exact samples piece listed
  · rw [List.mem_singleton.mp ending]
    exact nextRow

/-- What holds of every line of a pass. -/
theorem forall_mem_passInstructions {colors : ColorPaths} {pass : Pass} {p : Instruction → Prop}
    (feedRate : p (.feedRate (Quantity.feedrate.constrain pass.feedrate)))
    (power : p (.power (powerOfIntensity (Quantity.intensity.constrain pass.intensity))))
    (moves : ∀ color, ∀ path ∈ (colors.get? color).getD [], ∀ point ∈ path,
      p (.seek point) ∧ p (.feed point)) :
    ∀ instruction ∈ passInstructions colors pass, p instruction := by
  intro instruction inside
  rcases List.mem_cons.mp inside with rfl | inside
  · exact feedRate
  rcases List.mem_cons.mp inside with rfl | inside
  · exact power
  obtain ⟨color, -, inside⟩ := List.mem_flatMap.mp inside
  obtain ⟨path, listed, inside⟩ := List.mem_flatMap.mp inside
  cases path with
  | nil => cases inside
  | cons start rest =>
      rcases List.mem_cons.mp inside with rfl | inside
      · exact (moves color _ listed start List.mem_cons_self).1
      · obtain ⟨point, member, rfl⟩ := List.mem_map.mp inside
        exact (moves color _ listed point (List.mem_cons_of_mem _ member)).2

/-- What holds of every line of a raster. -/
theorem forall_mem_rasterInstructions {settings : Settings} {raster : Raster}
    {p : Instruction → Prop} (engraveRate : p (.engraveRate settings.rasterFeedrate.toNat))
    (seek : p (.seek raster.position)) (dotPitch : p (.dotPitch settings.kerf))
    (runway : p (.runway settings.rasterOffset)) (nextRow : p .nextRow)
    (samples : ∀ row ∈ raster.rows, ∀ piece ∈ chunks (max settings.rasterLinechars.toNat 1) row,
      p (.samples piece)) :
    ∀ instruction ∈ rasterInstructions settings raster, p instruction := by
  intro instruction inside
  rcases List.mem_append.mp inside with heading | inside
  · simp only [List.mem_cons, List.not_mem_nil, or_false] at heading
    rcases heading with rfl | rfl | rfl | rfl | rfl
    · exact engraveRate
    · exact seek
    · exact dotPitch
    · exact runway
    · exact nextRow
  · obtain ⟨row, listed, inside⟩ := List.mem_flatMap.mp inside
    exact forall_mem_rowInstructions (samples row listed) nextRow instruction inside

/-- What holds of every line of a job. -/
theorem forall_mem_jobInstructions {settings : Settings} {job : Job} {p : Instruction → Prop}
    (header : p .absolute ∧ p .airOn ∧ p (.seekRate settings.maxSeekSpeed.toNat))
    (rasters : ∀ raster ∈ job.rasters, ∀ instruction ∈ rasterInstructions settings raster,
      p instruction)
    (passes : ∀ pass ∈ job.passes, ∀ instruction ∈ passInstructions job.colors pass, p instruction)
    (footer : p .airOff ∧ p (.power 0) ∧ p (.home settings.maxSeekSpeed.toNat)) :
    ∀ instruction ∈ jobInstructions settings job, p instruction := by
  simp only [jobInstructions, List.forall_mem_append, List.forall_mem_cons]
  refine ⟨⟨⟨⟨header.1, header.2.1, header.2.2, by simp⟩, ?_⟩, ?_⟩, footer.1, footer.2.1,
    footer.2.2, by simp⟩
  · intro instruction inside
    obtain ⟨raster, listed, member⟩ := List.mem_flatMap.mp inside
    exact rasters raster listed instruction member
  · intro instruction inside
    obtain ⟨pass, listed, member⟩ := List.mem_flatMap.mp inside
    exact passes pass listed instruction member

/-- The feedrate of a pass is readable, whatever it asks for. -/
theorem isReadable_feedRate (value : Float) :
    (Instruction.feedRate (Quantity.feedrate.constrain value)).IsReadable := by
  obtain ⟨rate, denotes, -⟩ := denotes_feedrate value
  exact ⟨⟨rate, denotes⟩, read?_feedrate value⟩

/-- The program of a job with finite coordinates is readable. -/
theorem isReadable_of_mem_jobInstructions (settings : Settings) {job : Job}
    (paths : job.HasFinitePaths) (rasters : job.HasFiniteRasters) :
    ∀ instruction ∈ jobInstructions settings job, instruction.IsReadable := by
  apply forall_mem_jobInstructions
  · exact ⟨trivial, trivial, trivial⟩
  · intro raster listed
    exact forall_mem_rasterInstructions trivial (rasters raster listed) trivial trivial trivial
      fun _ _ _ _ => trivial
  · intro pass _
    refine forall_mem_passInstructions (isReadable_feedRate pass.feedrate) trivial ?_
    intro color path listed point member
    exact ⟨paths.get? color path listed point member, paths.get? color path listed point member⟩
  · exact ⟨trivial, trivial, trivial⟩

/-- The data lines of a job with valid rasters hold samples. -/
theorem isSampled_of_mem_jobInstructions (settings : Settings) {job : Job}
    (valid : job.HasValidRasters) :
    ∀ instruction ∈ jobInstructions settings job, instruction.IsSampled := by
  apply forall_mem_jobInstructions
  · exact ⟨trivial, trivial, trivial⟩
  · intro raster listed
    refine forall_mem_rasterInstructions trivial trivial trivial trivial trivial ?_
    intro row inside piece cut byte member
    apply Raster.isValid_of_mem_rows (valid raster listed) inside
    rw [← (isCut_chunks (lt_max_of_lt_right one_pos) row).flatten]
    exact List.mem_flatten_of_mem cut member
  · intro pass _
    exact forall_mem_passInstructions trivial trivial fun _ _ _ _ _ => ⟨trivial, trivial⟩
  · exact ⟨trivial, trivial, trivial⟩

end LaserCut.Machine
