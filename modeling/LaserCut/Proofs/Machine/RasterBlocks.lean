/-
# Rasters in a program

The lines of a raster are a block with a heading and, row by row, the data
lines of that row and the line that ends it.  No sample is lost on the way from
the image into the text, and none gets into another row.
-/

import Mathlib
import LaserCut.Proofs.Machine.Encoded

namespace LaserCut.Machine

open Decimal

/-- The most samples of a data line: a length of zero counts as one. -/
def dataWidth (settings : Settings) : Nat :=
  max settings.rasterLinechars.toNat 1

theorem dataWidth_pos (settings : Settings) : 0 < dataWidth settings :=
  lt_max_of_lt_right one_pos

/-- The lines of a raster whose rows are sent in the given pieces. -/
def blockLines (settings : Settings) (raster : Raster) (payloads : List (List (List UInt8))) :
    List (List Char) :=
  ["G1F".toList ++ digitsOf settings.rasterFeedrate.toNat,
    "G0".toList ++ pointWords settings.numDigits.toNat raster.position,
    "G8P".toList ++ fixed settings.kerf (settings.numDigits.toNat + 2),
    "G8X".toList ++ fixed settings.rasterOffset settings.numDigits.toNat,
    "G8N".toList] ++
    payloads.flatMap fun pieces =>
      pieces.map (fun piece => "G8D".toList ++ Sample.text piece) ++ ["G8N".toList]

/-- The pieces in which the rows of a raster are sent: every row of pixels is
cut on its own, and nothing of the image is missing or too long. -/
structure IsSent (width : Nat) (raster : Raster) (payloads : List (List (List UInt8))) : Prop where
  rows : List.Forall₂ (IsCut width) ((List.range raster.heightPx.toNat).map raster.row) payloads
  wide : ∀ k < raster.heightPx.toNat, (raster.row k).length = raster.widthPx.toNat
  image : payloads.flatten.flatten = raster.image
  bounded : ∀ pieces ∈ payloads, ∀ piece ∈ pieces, piece.length ≤ width

/-- No piece of a row is longer than a data line may be. -/
theorem IsCut.bounded {width : Nat} {row : List UInt8} {pieces : List (List UInt8)}
    (positive : 0 < width) (cut : IsCut width row pieces) :
    ∀ piece ∈ pieces, piece.length ≤ width := by
  intro piece inside
  obtain ⟨last, ending, remainder⟩ := cut.rest
  rw [← List.dropLast_append_getLast? last ending] at inside
  rcases List.mem_append.mp inside with full | final
  · exact (cut.full piece full).le
  · rw [List.mem_singleton.mp final, remainder]
    exact (Nat.mod_lt _ positive).le

/-- The pieces of all rows together are the rows together. -/
theorem flatten_of_forall₂_isCut {width : Nat} {rows : List (List UInt8)}
    {payloads : List (List (List UInt8))} (cut : List.Forall₂ (IsCut width) rows payloads) :
    payloads.flatten.flatten = rows.flatten := by
  induction cut with
  | nil => rfl
  | cons first _ ih =>
      rw [List.flatten_cons, List.flatten_append, first.flatten, ih, List.flatten_cons]

/-- A valid raster is sent in the pieces that its rows are cut into. -/
theorem isSent_chunks {width : Nat} (positive : 0 < width) {raster : Raster}
    (valid : raster.isValid) : IsSent width raster (raster.rows.map (chunks width)) where
  rows := by
    rw [← raster.rows_eq_map, List.forall₂_map_right_iff, List.forall₂_same]
    exact fun row _ => isCut_chunks positive row
  wide := by
    intro k inside
    apply Raster.length_of_mem_rows valid
    rw [raster.rows_eq_map]
    exact List.mem_map_of_mem (List.mem_range.mpr inside)
  image := by
    have cut : List.Forall₂ (IsCut width) raster.rows (raster.rows.map (chunks width)) := by
      rw [List.forall₂_map_right_iff, List.forall₂_same]
      exact fun row _ => isCut_chunks positive row
    rw [flatten_of_forall₂_isCut cut, Raster.flatten_rows valid]
  bounded := by
    intro pieces inside
    obtain ⟨row, -, rfl⟩ := List.mem_map.mp inside
    exact (isCut_chunks positive row).bounded positive

/-- The lines of a raster are the block of the pieces of its rows. -/
theorem render_rasterInstructions (settings : Settings) (raster : Raster) :
    (rasterInstructions settings raster).map (Instruction.render settings.numDigits.toNat) =
      blockLines settings raster (raster.rows.map (chunks (dataWidth settings))) := by
  rw [rasterInstructions, List.map_append, List.map_flatMap, blockLines, List.flatMap_map]
  congr 2
  funext row
  rw [rowInstructions, List.map_append, List.map_map]
  rfl

/-- The lines of rasters are their blocks in order. -/
theorem render_rasters (settings : Settings) (rasters : List Raster) :
    (rasters.flatMap (rasterInstructions settings)).map
        (Instruction.render settings.numDigits.toNat) =
      (List.zipWith (blockLines settings) rasters
        (rasters.map fun raster => raster.rows.map (chunks (dataWidth settings)))).flatten := by
  induction rasters with
  | nil => rfl
  | cons raster rest ih =>
      rw [List.flatMap_cons, List.map_append, render_rasterInstructions, ih]
      rfl

/-- Whether a line belongs to a raster. -/
def isBlockLine (line : List Char) : Bool :=
  "G8".toList.isPrefixOf line

/-- The instructions behind the rasters: the passes and the end. -/
def laterInstructions (settings : Settings) (job : Job) : List Instruction :=
  job.passes.flatMap (passInstructions job.colors) ++
    [.airOff, .power 0, .home settings.maxSeekSpeed.toNat]

/-- The lines behind the rasters belong to no raster. -/
theorem isBlockLine_of_mem_later (settings : Settings) (job : Job) :
    ∀ line ∈ (laterInstructions settings job).map (Instruction.render settings.numDigits.toNat),
      isBlockLine line = false := by
  intro line inside
  obtain ⟨instruction, member, rfl⟩ := List.mem_map.mp inside
  rcases List.mem_append.mp member with inside | ending
  · obtain ⟨pass, -, member⟩ := List.mem_flatMap.mp inside
    exact forall_mem_passInstructions
      (p := fun instruction => isBlockLine (instruction.render _) = false)
      rfl rfl (fun _ _ _ _ _ => ⟨rfl, rfl⟩) instruction member
  · simp only [List.mem_cons, List.not_mem_nil, or_false] at ending
    rcases ending with rfl | rfl | rfl <;> rfl

/-- Split at its line feeds, the program of a job has a block for each raster
right behind its header, in the order of the rasters, and no other line of a
raster.  The data lines of a block hold the image of its raster row by row. -/
theorem splitLines_encode (settings : Settings) (job : Job) (rasters : job.HasValidRasters) :
    ∃ payloads rest,
      Text.splitLines (encode settings job).toList =
        ["G90".toList, "M80".toList,
          "G0F".toList ++ digitsOf settings.maxSeekSpeed.toNat] ++
        (List.zipWith (blockLines settings) job.rasters payloads).flatten ++ rest ∧
      List.Forall₂ (IsSent (dataWidth settings)) job.rasters payloads ∧
      ∀ line ∈ rest, isBlockLine line = false := by
  have lines := splitLines_programText settings.numDigits.toNat
    (isSampled_of_mem_jobInstructions settings rasters)
  refine ⟨job.rasters.map fun raster => raster.rows.map (chunks (dataWidth settings)),
    (laterInstructions settings job).map (Instruction.render settings.numDigits.toNat) ++ [[]],
    ?_, ?_, ?_⟩
  · rw [encode, String.toList_ofList, lines, jobInstructions, ← render_rasters, laterInstructions]
    simp only [List.map_append, List.append_assoc]
    rfl
  · rw [List.forall₂_map_right_iff, List.forall₂_same]
    exact fun raster listed => isSent_chunks (dataWidth_pos settings) (rasters raster listed)
  · intro line inside
    rcases List.mem_append.mp inside with passes | empty
    · exact isBlockLine_of_mem_later settings job line passes
    · rw [List.mem_singleton.mp empty]
      rfl

/-- The samples of the sample job are sent, all of them. -/
theorem splitLines_sample :
    ∃ payloads rest,
      Text.splitLines (encode .default .sample).toList =
        ["G90".toList, "M80".toList, "G0F8000".toList] ++
          (List.zipWith (blockLines .default) Job.sample.rasters payloads).flatten ++ rest ∧
      payloads.flatten.flatten.flatten = [40, 59, 71, 49, 88, 41] := by
  obtain ⟨payloads, rest, lines, sent, -⟩ := splitLines_encode .default .sample
    Job.sample_hasValidRasters
  refine ⟨payloads, rest, lines, ?_⟩
  obtain ⟨first, others, image, sentOthers, rfl⟩ := List.forall₂_cons_left_iff.mp sent
  obtain rfl := List.forall₂_nil_left_iff.mp sentOthers
  simpa [Job.sample] using image.image

end LaserCut.Machine
