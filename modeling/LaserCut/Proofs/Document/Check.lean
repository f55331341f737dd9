/-
# What a document is checked for

A document has to have all its parts, valid rasters and finite passes.  Each check
reports the first fault that it finds, or that there is none.
-/

import Mathlib
import LaserCut.Document.Job
import LaserCut.Proofs.Attempt

namespace LaserCut.JobContent

/-- A part that a draft has is given, and one that it lacks is reported. -/
theorem part_eq_ok_iff {α : Type} {name : String} {value : Option (Option α)} {result : α} :
    part name value = .ok result ↔ value.join = some result := by
  unfold part
  cases value.join <;> simp

/-- What is reported of a part is that it is missing. -/
theorem part_eq_error_iff {α : Type} {name : String} {value : Option (Option α)}
    {fault : ImportFault} :
    part name value = .error fault ↔ value.join = none ∧ fault = .missingKey name := by
  unfold part
  cases value.join <;> simp [eq_comm]

/-- The fault of a list of rasters is that of the first one that is not valid. -/
theorem rasterFault?_eq_some_iff {document : JobContent} {fault : ImportFault} :
    document.rasterFault? = some fault ↔ ∃ before raster after reason,
      document.rasters = before ++ raster :: after ∧ (∀ other ∈ before, other.isValid) ∧
        raster.fault? = some reason ∧ fault = .invalidRaster before.length reason := by
  rw [rasterFault?, List.findSome?_eq_some_iff]
  constructor
  · rintro ⟨front, ⟨raster, index⟩, back, split, found, first⟩
    obtain ⟨before, rest, whole, rfl, cut⟩ := List.zipIdx_eq_append_iff.mp split
    obtain ⟨_, after, rfl, place, -⟩ := List.zipIdx_eq_cons_iff.mp cut.symm
    obtain ⟨rfl, rfl⟩ := Prod.mk.inj place
    obtain ⟨reason, invalid, rfl⟩ := Option.map_eq_some_iff.mp found
    refine ⟨before, raster, after, reason, whole, fun other inside => ?_, invalid, ?_⟩
    · obtain ⟨place, listed⟩ := List.mem_iff_getElem?.mp inside
      have fits := first (other, place) (List.mk_mem_zipIdx_iff_getElem?.mpr listed)
      exact Option.isNone_iff_eq_none.mpr (Option.map_eq_none_iff.mp fits)
    · rw [Nat.zero_add]
  · rintro ⟨before, raster, after, reason, whole, first, invalid, rfl⟩
    refine ⟨before.zipIdx, (raster, before.length), after.zipIdx (before.length + 1), ?_, ?_, ?_⟩
    · rw [whole, List.zipIdx_append, List.zipIdx_cons, Nat.zero_add]
    · dsimp only
      rw [invalid]
      rfl
    · rintro ⟨other, index⟩ inside
      have fits := Option.isNone_iff_eq_none.mp (first other (List.fst_mem_of_mem_zipIdx inside))
      dsimp only
      rw [fits]
      rfl

/-- The fault of a list of passes is that of the first one that is not finite. -/
theorem passFault?_eq_some_iff {document : JobContent} {fault : ImportFault} :
    document.passFault? = some fault ↔ ∃ before pass after,
      document.passes = before ++ pass :: after ∧ (∀ other ∈ before, other.isFinite) ∧
        pass.isFinite = false ∧ fault = .invalidPass before.length := by
  rw [passFault?, Option.map_eq_some_iff]
  constructor
  · rintro ⟨index, found, rfl⟩
    obtain ⟨inside, infinite, first⟩ := List.findIdx?_eq_some_iff_getElem.mp found
    refine ⟨document.passes.take index, document.passes[index], document.passes.drop (index + 1),
      ?_, fun other listed => ?_, by simpa using infinite, ?_⟩
    · rw [List.cons_getElem_drop_succ, List.take_append_drop]
    · obtain ⟨place, -, rfl⟩ := List.mem_take_iff_getElem.mp listed
      simpa using first place (by omega)
    · rw [List.length_take_of_le inside.le]
  · rintro ⟨before, pass, after, whole, first, infinite, rfl⟩
    refine ⟨before.length, ?_, rfl⟩
    have unfound : before.findIdx? (fun pass => !pass.isFinite) = none :=
      List.findIdx?_eq_none_iff.mpr fun other inside => by rw [first other inside]; rfl
    rw [whole, List.findIdx?_append, unfound, List.findIdx?_cons, infinite]
    simp

/-- A document without a fault in its rasters has valid ones. -/
theorem rasterFault?_eq_none_iff {document : JobContent} :
    document.rasterFault? = none ↔ ∀ raster ∈ document.rasters, raster.isValid := by
  rw [rasterFault?, List.findSome?_eq_none_iff]
  constructor
  · intro faultless raster inside
    obtain ⟨index, listed⟩ := List.mem_iff_getElem?.mp inside
    have fits := faultless (raster, index) (List.mk_mem_zipIdx_iff_getElem?.mpr listed)
    exact Option.isNone_iff_eq_none.mpr (Option.map_eq_none_iff.mp fits)
  · rintro valid ⟨raster, index⟩ inside
    have fits : raster.fault? = none :=
      Option.isNone_iff_eq_none.mp (valid raster (List.fst_mem_of_mem_zipIdx inside))
    exact congrArg (Option.map _) fits

/-- A document without a fault in its passes has finite ones. -/
theorem passFault?_eq_none_iff {document : JobContent} :
    document.passFault? = none ↔ ∀ pass ∈ document.passes, pass.isFinite := by
  rw [passFault?, Option.map_eq_none_iff, List.findIdx?_eq_none_iff]
  simp

/-- A check fails with the first fault, that of a raster before that of a pass. -/
theorem check_eq_error_iff {document : JobContent} {fault : ImportFault} :
    document.check = .error fault ↔ document.rasterFault? = some fault ∨
      document.rasterFault? = none ∧ document.passFault? = some fault := by
  rw [← Option.or_eq_some_iff, check]
  cases document.rasterFault?.or document.passFault? <;> simp

/-- A document with valid rasters and finite passes passes the check, and no other
one does. -/
theorem check_eq_ok_iff {document : JobContent} :
    document.check = .ok () ↔ (∀ raster ∈ document.rasters, raster.isValid) ∧
      ∀ pass ∈ document.passes, pass.isFinite := by
  rw [← rasterFault?_eq_none_iff, ← passFault?_eq_none_iff, ← Option.or_eq_none_iff, check]
  cases document.rasterFault?.or document.passFault? <;> simp

end LaserCut.JobContent
