/-
# Data lines of a raster row

A row is cut into pieces of the length that a data line may have.  The last
piece is what remains of the row, which may be nothing, and it is a data line
of its own all the same.
-/

import Mathlib
import LaserCut.Machine.Program
import LaserCut.Proofs.Raster

namespace LaserCut.Machine

/-- Pieces of a row: full ones, and one last piece with the remainder. -/
structure IsCut (width : Nat) (row : List UInt8) (pieces : List (List UInt8)) : Prop where
  flatten : pieces.flatten = row
  count : pieces.length = row.length / width + 1
  full : ∀ piece ∈ pieces.dropLast, piece.length = width
  rest : ∃ last, pieces.getLast? = some last ∧ last.length = row.length % width

/-- The first pieces of a row are consecutive. -/
theorem flatten_slices (width count : Nat) (row : List UInt8) :
    ((List.range count).map fun k => (row.drop (k * width)).take width).flatten =
      row.take (count * width) := by
  induction count with
  | zero => simp
  | succ count ih =>
      rw [List.range_succ, List.map_append, List.flatten_append, ih, Nat.succ_mul, List.take_add]
      simp

/-- A row is cut into full pieces and one last piece. -/
theorem isCut_chunks {width : Nat} (positive : 0 < width) (row : List UInt8) :
    IsCut width row (chunks width row) where
  flatten := by
    rw [chunks, List.flatten_append, flatten_slices]
    simp
  count := by
    simp [chunks]
  full := by
    intro piece inside
    rw [chunks, List.dropLast_concat] at inside
    obtain ⟨k, listed, rfl⟩ := List.mem_map.mp inside
    have bound : (k + 1) * width ≤ row.length :=
      (Nat.mul_le_mul_right width (List.mem_range.mp listed)).trans (Nat.div_mul_le_self _ _)
    rw [List.length_take, List.length_drop]
    rw [Nat.succ_mul] at bound
    omega
  rest := by
    refine ⟨row.drop (row.length / width * width), by simp [chunks], ?_⟩
    rw [List.length_drop, Nat.mul_comm, ← Nat.mod_eq_sub_mul_div]

end LaserCut.Machine
