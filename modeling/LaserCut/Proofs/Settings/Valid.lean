/-
# Valid settings

Settings are valid when they keep all rules.  The rules look at numbers only, so settings
that are the same as numbers are valid together.
-/

import Mathlib
import LaserCut.Proofs.Decimal.SameNumber
import LaserCut.Settings.File

namespace LaserCut.Settings

open Decimal (IsSameNumber)

/-- The settings that have a fraction are finite. -/
structure IsFinite (settings : Settings) : Prop where
  kerf : settings.kerf.isFinite
  rasterOffset : settings.rasterOffset.isFinite
  maxSegmentLength : settings.maxSegmentLength.isFinite

/-- The settings keep all rules. -/
structure IsValid (settings : Settings) : Prop extends settings.IsFinite where
  maxSeekSpeed : settings.maxSeekSpeed ≠ 0
  rasterFeedrate : settings.rasterFeedrate ≠ 0
  numDigits : settings.numDigits ≤ maxDigits
  kerf_pos : 0 < settings.kerf
  rasterOffset_nonneg : 0 ≤ settings.rasterOffset
  rasterLinechars : settings.rasterLinechars ≠ 0
  maxSegmentLength_pos : 0 < settings.maxSegmentLength

variable {settings other : Settings}

/-- Settings pass the check when they keep all rules. -/
theorem validate_eq_ok_iff : settings.validate = .ok () ↔ settings.IsValid := by
  have passes : settings.validate = .ok () ↔ settings.fault? = none := by
    rw [validate]
    cases settings.fault? <;> simp
  rw [passes, fault?, Option.map_eq_none_iff, List.find?_eq_none]
  simp only [checks, List.forall_mem_cons, List.not_mem_nil, false_implies, implies_true,
    Bool.not_eq_true', Bool.not_eq_false, bne_iff_ne, decide_eq_true_eq, Bool.and_eq_true,
    and_true]
  constructor
  · rintro ⟨seek, feedrate, digits, ⟨kerf, positive⟩, ⟨offset, nonneg⟩, linechars, length, divides⟩
    exact ⟨⟨kerf, offset, length⟩, seek, feedrate, digits, positive, nonneg, linechars, divides⟩
  · intro valid
    exact ⟨valid.maxSeekSpeed, valid.rasterFeedrate, valid.numDigits, ⟨valid.kerf, valid.kerf_pos⟩,
      ⟨valid.rasterOffset, valid.rasterOffset_nonneg⟩, valid.rasterLinechars,
      valid.maxSegmentLength, valid.maxSegmentLength_pos⟩

/-- Settings that are the same as valid ones are valid. -/
theorem IsValid.of_same (valid : settings.IsValid) (same : other.same settings) :
    other.IsValid := by
  simp only [Settings.same, Bool.and_eq_true, beq_iff_eq] at same
  obtain ⟨⟨⟨⟨⟨⟨seek, feedrate⟩, digits⟩, kerf⟩, offset⟩, linechars⟩, length⟩ := same
  have above {left right : Float} (equal : left == right) (bound : 0 < right) : 0 < left :=
    ((IsSameNumber.refl 0).lt_iff (Decimal.isSameNumber_of_beq equal)).mpr bound
  have least {left right : Float} (equal : left == right) (bound : 0 ≤ right) : 0 ≤ left :=
    ((IsSameNumber.refl 0).le_iff (Decimal.isSameNumber_of_beq equal)).mpr bound
  exact {
    kerf := Decimal.isFinite_of_beq kerf valid.kerf
    rasterOffset := Decimal.isFinite_of_beq offset valid.rasterOffset
    maxSegmentLength := Decimal.isFinite_of_beq length valid.maxSegmentLength
    maxSeekSpeed := seek ▸ valid.maxSeekSpeed
    rasterFeedrate := feedrate ▸ valid.rasterFeedrate
    numDigits := digits ▸ valid.numDigits
    kerf_pos := above kerf valid.kerf_pos
    rasterOffset_nonneg := least offset valid.rasterOffset_nonneg
    rasterLinechars := linechars ▸ valid.rasterLinechars
    maxSegmentLength_pos := above length valid.maxSegmentLength_pos }

end LaserCut.Settings
