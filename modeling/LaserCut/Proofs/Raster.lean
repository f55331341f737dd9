/-
# Samples and rows of a raster

A raster that is valid has as many samples as its size in pixels asks for.  Its
rows are consecutive pieces of the samples, all of the same width, and nothing
is left over.
-/

import Mathlib
import LaserCut.Raster

namespace LaserCut.Sample

/-- The bytes that are samples. -/
theorem isValid_iff {byte : UInt8} : isValid byte = true ↔ 33 ≤ byte.toNat ∧ byte.toNat ≤ 118 := by
  simp only [isValid, Bool.and_eq_true, decide_eq_true_eq, UInt8.le_iff_toNat_le]
  rfl

/-- The character of a sample has the number of its byte. -/
theorem toNat_char {byte : UInt8} : (char byte).toNat = byte.toNat := by
  have small := byte.toNat_lt
  rw [char, Char.toNat_ofNat, if_pos (.inl (by omega))]

/-- An intensity is counted in steps of three from the least sample, up to the last of them. -/
theorem toNat_decode (byte : UInt8) : (decode byte).toNat = min 255 (3 * (byte.toNat - 33)) := by
  rw [decode, UInt8.toNat_ofNat_of_lt' (Nat.lt_succ_of_le (Nat.min_le_left _ _))]
  rfl

/-- A sample is counted from the least one. -/
theorem toNat_encode (intensity : UInt8) : (encode intensity).toNat = 33 + intensity.toNat / 3 := by
  have small := intensity.toNat_lt
  have fits : 33 + intensity.toNat / 3 < 2 ^ 8 := by omega
  rw [encode, UInt8.toNat_add, UInt8.toNat_div]
  exact Nat.mod_eq_of_lt fits

/-- Every intensity has a sample. -/
theorem isValid_encode (intensity : UInt8) : isValid (encode intensity) = true := by
  have small := intensity.toNat_lt
  rw [isValid_iff, toNat_encode]
  omega

/-- A sample is found again from its intensity. -/
theorem encode_decode {byte : UInt8} (valid : isValid byte = true) :
    encode (decode byte) = byte := by
  obtain ⟨low, high⟩ := isValid_iff.mp valid
  apply UInt8.toNat_inj.mp
  rw [toNat_encode, toNat_decode]
  omega

/-- An intensity is found again up to a third of a step of samples. -/
theorem toNat_decode_encode (intensity : UInt8) :
    (decode (encode intensity)).toNat = intensity.toNat / 3 * 3 := by
  have small := intensity.toNat_lt
  rw [toNat_decode, toNat_encode]
  omega

end LaserCut.Sample

namespace LaserCut.Raster

/-- What validity means for the samples. -/
theorem isValid_iff (raster : Raster) :
    raster.isValid ↔ raster.image.length = raster.sampleCount ∧
      ∀ byte ∈ raster.image, Sample.isValid byte = true := by
  rw [isValid, fault?]
  split_ifs with wrong
  · simp [wrong]
  · rw [not_not] at wrong
    cases found : raster.image.findIdx? fun byte => !Sample.isValid byte with
    | none =>
        rw [List.findIdx?_eq_none_iff] at found
        simpa [wrong] using found
    | some offset =>
        obtain ⟨inside, invalid, -⟩ := List.findIdx?_eq_some_iff_getElem.mp found
        have exception : ¬ ∀ byte ∈ raster.image, Sample.isValid byte = true := by
          intro all
          have valid := all _ (List.getElem_mem inside)
          simp [valid] at invalid
        simp only [Option.bind_some, List.getElem?_eq_getElem inside, Option.map_some,
          Option.isNone_some, Bool.false_eq_true, false_iff, not_and]
        exact fun _ => exception

/-- Rows take consecutive samples. -/
theorem flatten_rowsOf (width count : Nat) (samples : List UInt8) :
    (rowsOf width count samples).flatten = samples.take (width * count) := by
  induction count generalizing samples with
  | zero => simp [rowsOf]
  | succ count ih =>
      rw [rowsOf, List.flatten_cons, ih, ← List.take_add, Nat.mul_succ, Nat.add_comm]

/-- Rows that the samples suffice for have the same width. -/
theorem length_of_mem_rowsOf {width count : Nat} {samples row : List UInt8}
    (enough : width * count ≤ samples.length) (inside : row ∈ rowsOf width count samples) :
    row.length = width := by
  induction count generalizing samples with
  | zero => cases inside
  | succ count ih =>
      rw [Nat.mul_succ] at enough
      rcases List.mem_cons.mp inside with rfl | later
      · rw [List.length_take]
        omega
      · exact ih (by rw [List.length_drop]; omega) later

/-- A row of pixels: the samples after those of the rows before it. -/
def row (raster : Raster) (k : Nat) : List UInt8 :=
  (raster.image.drop (k * raster.widthPx.toNat)).take raster.widthPx.toNat

/-- Each row starts where the rows before it end. -/
theorem rowsOf_eq_map (width count : Nat) (samples : List UInt8) :
    rowsOf width count samples =
      (List.range count).map fun k => (samples.drop (k * width)).take width := by
  induction count generalizing samples with
  | zero => rfl
  | succ count ih =>
      rw [rowsOf, ih, List.range_succ_eq_map, List.map_cons, List.map_map, Nat.zero_mul,
        List.drop_zero]
      congr 1
      apply List.map_congr_left
      intro k _
      rw [Function.comp_apply, List.drop_drop, Nat.succ_mul, Nat.add_comm]

theorem rows_eq_map (raster : Raster) :
    raster.rows = (List.range raster.heightPx.toNat).map raster.row :=
  rowsOf_eq_map _ _ _

/-- The rows of a valid raster together are its samples. -/
theorem flatten_rows {raster : Raster} (valid : raster.isValid) :
    raster.rows.flatten = raster.image := by
  obtain ⟨length, -⟩ := raster.isValid_iff.mp valid
  rw [rows, flatten_rowsOf]
  exact List.take_of_length_le length.le

/-- The rows of a valid raster are as wide as the raster. -/
theorem length_of_mem_rows {raster : Raster} (valid : raster.isValid) {row : List UInt8}
    (inside : row ∈ raster.rows) : row.length = raster.widthPx.toNat := by
  obtain ⟨length, -⟩ := raster.isValid_iff.mp valid
  exact length_of_mem_rowsOf length.ge inside

/-- The rows of a valid raster are made of samples. -/
theorem isValid_of_mem_rows {raster : Raster} (valid : raster.isValid) {row : List UInt8}
    (inside : row ∈ raster.rows) : ∀ byte ∈ row, Sample.isValid byte = true := by
  intro byte member
  apply (raster.isValid_iff.mp valid).2
  rw [← flatten_rows valid]
  exact List.mem_flatten_of_mem inside member

end LaserCut.Raster
