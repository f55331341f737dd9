/-
# Settings in JSON files are read back

A file that is written for settings is an object of numbers.  Its whole numbers are read
back in their full range; a number with a fraction is read as what its text on its own
is read as, which need not be the double that was written.
-/

import Mathlib
import LaserCut.Document.Settings
import LaserCut.Proofs.Document.Decimals
import LaserCut.Proofs.Document.Parts
import LaserCut.Proofs.Json.Pretty
import LaserCut.Proofs.Json.Reading
import LaserCut.Proofs.Settings.Valid

namespace LaserCut.Settings

open Json (IsNumber Numeral NumberMember)

/-- The text of a double in a JSON file is read as a double. -/
def ReadsAs (value back : Float) : Prop :=
  Json.decode Json.readFloat (Json.decimal value).toCompact = .ok back

/-- A finite double is written as a number, which is read as what its text is. -/
theorem ReadsAs.exists_isNumber {value back : Float} (finite : value.isFinite)
    (reads : ReadsAs value back) :
    ∃ numeral, IsNumber (.decimal value) numeral ∧
      Json.readFloat (.number numeral) = .ok back := by
  obtain ⟨numeral, scan, known⟩ := Json.scanNumber_of_decode
    (fun fault other => by simp [Json.readFloat, Json.Node.refuse, Json.breach])
    (fun c => Json.isNumeric_of_mem_renderDecimal finite) reads
  exact ⟨numeral, ⟨scan, fun depth => by rw [Json.pretty, Json.compact]⟩, known⟩

/-- A whole number that fits a machine word is written as a number. -/
theorem isNumber_integer {n : Nat} (fits : n ≤ Json.maxSignificand) :
    IsNumber (.integer n) (.integer n) :=
  ⟨Json.scanNumber_renderInteger fits, fun depth => by rw [Json.pretty, Json.compact]⟩

/-- The members of a file for settings, with the numerals that they are read as. -/
def jsonEntries (settings : Settings) (kerf rasterOffset maxSegmentLength : Numeral) :
    List NumberMember :=
  let whole (key : SettingKey) (value : Nat) : NumberMember :=
    (key.name, .integer value, .integer value)
  [whole .maxSeekSpeed settings.maxSeekSpeed.toNat,
    whole .rasterFeedrate settings.rasterFeedrate.toNat,
    whole .numDigits settings.numDigits.toNat,
    (SettingKey.kerf.name, .decimal settings.kerf, kerf),
    (SettingKey.rasterOffset.name, .decimal settings.rasterOffset, rasterOffset),
    whole .rasterLinechars settings.rasterLinechars.toNat,
    (SettingKey.maxSegmentLength.name, .decimal settings.maxSegmentLength, maxSegmentLength)]

/-- A file for settings is parsed as its members. -/
theorem parse_toJson {settings : Settings} {kerf rasterOffset maxSegmentLength : Numeral}
    (numbers : ∀ entry ∈ settings.jsonEntries kerf rasterOffset maxSegmentLength,
      IsNumber entry.2.1 entry.2.2) :
    Json.parse settings.toJson.toPretty.toList =
      (.object ((settings.jsonEntries kerf rasterOffset maxSegmentLength).map NumberMember.parsed)
        none, some []) := by
  have written : settings.toJson = .object
      ((settings.jsonEntries kerf rasterOffset maxSegmentLength).map NumberMember.written) := rfl
  rw [written]
  exact Json.parse_pretty numbers

/-- Settings are read back from a file with the doubles that their texts are read as. -/
theorem decode_toPretty {settings : Settings} {kerf rasterOffset maxSegmentLength : Float}
    (finite : settings.IsFinite) (kerfReads : ReadsAs settings.kerf kerf)
    (offsetReads : ReadsAs settings.rasterOffset rasterOffset)
    (lengthReads : ReadsAs settings.maxSegmentLength maxSegmentLength) :
    Json.decode Settings.read settings.toJson.toPretty =
      .ok { settings with
        kerf := kerf, rasterOffset := rasterOffset, maxSegmentLength := maxSegmentLength } := by
  obtain ⟨kerfNumeral, kerfNumber, kerfKnown⟩ := kerfReads.exists_isNumber finite.kerf
  obtain ⟨offsetNumeral, offsetNumber, offsetKnown⟩ :=
    offsetReads.exists_isNumber finite.rasterOffset
  obtain ⟨lengthNumeral, lengthNumber, lengthKnown⟩ :=
    lengthReads.exists_isNumber finite.maxSegmentLength
  have fits32 (value : UInt32) : value.toNat ≤ Json.maxSignificand :=
    (Nat.le_sub_one_of_lt value.toNat_lt_size).trans (by decide)
  have fits64 (value : UInt64) : value.toNat ≤ Json.maxSignificand :=
    Nat.le_sub_one_of_lt value.toNat_lt_size
  have numbers : ∀ entry ∈ settings.jsonEntries kerfNumeral offsetNumeral lengthNumeral,
      IsNumber entry.2.1 entry.2.2 := by
    simp [jsonEntries, isNumber_integer, fits32, fits64, kerfNumber, offsetNumber, lengthNumber]
  have parsed := parse_toJson numbers
  have members : settingsKind.readMembers {}
      ((settings.jsonEntries kerfNumeral offsetNumeral lengthNumeral).map NumberMember.parsed) =
        .ok ⟨some settings.maxSeekSpeed, some settings.rasterFeedrate, some settings.numDigits,
          some kerf, some rasterOffset, some settings.rasterLinechars, some maxSegmentLength⟩ := by
    simp only [jsonEntries, List.map_cons, List.map_nil, NumberMember.parsed]
    have word32 (value : UInt32) :
        Json.readWord32 (.number (.integer value.toNat)) = .ok value :=
      Json.readWord_natCast value.toNat_lt_size value.ofNat_toNat
    have word64 (value : UInt64) :
        Json.readWord64 (.number (.integer value.toNat)) = .ok value :=
      Json.readWord_natCast value.toNat_lt_size value.ofNat_toNat
    rw [Json.RecordKind.readMembers_keyed rfl rfl
        (congrArg (Except.map _) (word32 settings.maxSeekSpeed)),
      Json.RecordKind.readMembers_keyed rfl rfl
        (congrArg (Except.map _) (word32 settings.rasterFeedrate)),
      Json.RecordKind.readMembers_keyed rfl rfl
        (congrArg (Except.map _) (word64 settings.numDigits)),
      Json.RecordKind.readMembers_keyed rfl rfl (congrArg (Except.map _) kerfKnown),
      Json.RecordKind.readMembers_keyed rfl rfl (congrArg (Except.map _) offsetKnown),
      Json.RecordKind.readMembers_keyed rfl rfl
        (congrArg (Except.map _) (word64 settings.rasterLinechars)),
      Json.RecordKind.readMembers_keyed rfl rfl (congrArg (Except.map _) lengthKnown)]
    rfl
  apply Json.decode_eq_ok_iff.mpr
  rw [parsed]
  refine ⟨?_, rfl⟩
  simp only [Settings.read, Json.RecordKind.read, members, bind, Except.bind, Json.closed, pure,
    Except.pure, Except.map, SettingsDraft.complete, Option.getD_some]

/-- The numbers with a fraction are read from their texts as the same numbers. -/
structure IsReadBack (settings : Settings) : Prop where
  kerf : ∃ back, ReadsAs settings.kerf back ∧ back == settings.kerf
  rasterOffset : ∃ back, ReadsAs settings.rasterOffset back ∧ back == settings.rasterOffset
  maxSegmentLength :
    ∃ back, ReadsAs settings.maxSegmentLength back ∧ back == settings.maxSegmentLength

/-- Numbers of few digits are read back. -/
theorem isReadBack_of_isShort {settings : Settings} (kerf : Decimal.IsShort settings.kerf)
    (offset : Decimal.IsShort settings.rasterOffset)
    (length : Decimal.IsShort settings.maxSegmentLength) : settings.IsReadBack := by
  have back {value : Float} (short : Decimal.IsShort value) :
      ∃ back, ReadsAs value back ∧ back == value :=
    ⟨value, short.isExchanged.2, Decimal.beq_self short.isFinite⟩
  exact ⟨back kerf, back offset, back length⟩

/-- Settings whose numbers are read back are the same when they are read. -/
theorem exists_decode_toPretty {settings : Settings} (finite : settings.IsFinite)
    (back : settings.IsReadBack) :
    ∃ loaded, Json.decode Settings.read settings.toJson.toPretty = .ok loaded ∧
      loaded.same settings := by
  obtain ⟨kerf, kerfReads, kerfSame⟩ := back.kerf
  obtain ⟨offset, offsetReads, offsetSame⟩ := back.rasterOffset
  obtain ⟨length, lengthReads, lengthSame⟩ := back.maxSegmentLength
  refine ⟨_, decode_toPretty finite kerfReads offsetReads lengthReads, ?_⟩
  simp [Settings.same, kerfSame, offsetSame, lengthSame]

end LaserCut.Settings
