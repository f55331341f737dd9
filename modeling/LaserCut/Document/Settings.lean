/-
# Settings in JSON files

A setting that a file leaves out has its default.  What is read may still have
a fault; reading only finds out what the file says.
-/

import LaserCut.Json.Reading
import LaserCut.Json.Value
import LaserCut.Settings.Basic

namespace LaserCut

open Json (Reader RecordKind)

/-- Settings that are being read. -/
structure SettingsDraft where
  maxSeekSpeed : Option UInt32 := none
  rasterFeedrate : Option UInt32 := none
  numDigits : Option UInt64 := none
  kerf : Option Float := none
  rasterOffset : Option Float := none
  rasterLinechars : Option UInt64 := none
  maxSegmentLength : Option Float := none

/-- What a file says, with defaults for the rest. -/
def SettingsDraft.complete (draft : SettingsDraft) : Settings where
  maxSeekSpeed := draft.maxSeekSpeed.getD Settings.default.maxSeekSpeed
  rasterFeedrate := draft.rasterFeedrate.getD Settings.default.rasterFeedrate
  numDigits := draft.numDigits.getD Settings.default.numDigits
  kerf := draft.kerf.getD Settings.default.kerf
  rasterOffset := draft.rasterOffset.getD Settings.default.rasterOffset
  rasterLinechars := draft.rasterLinechars.getD Settings.default.rasterLinechars
  maxSegmentLength := draft.maxSegmentLength.getD Settings.default.maxSegmentLength

/-- The field of a setting, which a file may leave out. -/
def SettingKey.field {α : Type} (key : SettingKey) (read : Reader α)
    (value : SettingsDraft → Option α) (put : α → SettingsDraft → SettingsDraft) :
    Json.Field SettingsDraft :=
  (Json.Field.of key.name read value put).trailing

/-- The fields of a settings file. -/
def settingsKind : RecordKind SettingsDraft where
  name := "LaserSettings"
  fields :=
    [SettingKey.maxSeekSpeed.field Json.readWord32 SettingsDraft.maxSeekSpeed
        fun value draft => { draft with maxSeekSpeed := some value },
      SettingKey.rasterFeedrate.field Json.readWord32 SettingsDraft.rasterFeedrate
        fun value draft => { draft with rasterFeedrate := some value },
      SettingKey.numDigits.field Json.readWord64 SettingsDraft.numDigits
        fun value draft => { draft with numDigits := some value },
      SettingKey.kerf.field Json.readFloat SettingsDraft.kerf
        fun value draft => { draft with kerf := some value },
      SettingKey.rasterOffset.field Json.readFloat SettingsDraft.rasterOffset
        fun value draft => { draft with rasterOffset := some value },
      SettingKey.rasterLinechars.field Json.readWord64 SettingsDraft.rasterLinechars
        fun value draft => { draft with rasterLinechars := some value },
      SettingKey.maxSegmentLength.field Json.readFloat SettingsDraft.maxSegmentLength
        fun value draft => { draft with maxSegmentLength := some value }]

namespace Settings

/-- Settings as a JSON file has them. -/
def toJson (settings : Settings) : Json :=
  .object
    [(SettingKey.maxSeekSpeed.name, .integer settings.maxSeekSpeed.toNat),
      (SettingKey.rasterFeedrate.name, .integer settings.rasterFeedrate.toNat),
      (SettingKey.numDigits.name, .integer settings.numDigits.toNat),
      (SettingKey.kerf.name, .decimal settings.kerf),
      (SettingKey.rasterOffset.name, .decimal settings.rasterOffset),
      (SettingKey.rasterLinechars.name, .integer settings.rasterLinechars.toNat),
      (SettingKey.maxSegmentLength.name, .decimal settings.maxSegmentLength)]

/-- Reads settings from a JSON file. -/
def read : Reader Settings := fun node =>
  (settingsKind.read {} node).map SettingsDraft.complete

end Settings

end LaserCut
