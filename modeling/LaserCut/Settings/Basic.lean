/-
# Machine settings

The options that the job and the machine program depend on.  A settings value
may hold anything; only one without a fault is written to a file or accepted
from one.
-/

import LaserCut.Decimal.Layout

namespace LaserCut

/-- The machine settings, in the order in which files list them. -/
structure Settings where
  /-- Feedrate of moves that do not cut, in mm/min. -/
  maxSeekSpeed : UInt32
  /-- Feedrate of engraving, in mm/min. -/
  rasterFeedrate : UInt32
  /-- Decimal places of coordinates. -/
  numDigits : UInt64
  /-- Distance between raster dots, in mm. -/
  kerf : Float
  /-- Runway on either side of a raster row, in mm. -/
  rasterOffset : Float
  /-- Most samples on one data line. -/
  rasterLinechars : UInt64
  /-- Longest line after long lines are divided, in mm. -/
  maxSegmentLength : Float
  deriving DecidableEq

/-- The settings of a machine about which nothing is said. -/
def Settings.default : Settings where
  maxSeekSpeed := 8000
  rasterFeedrate := 3000
  numDigits := 2
  kerf := 0.1
  rasterOffset := 40.0
  rasterLinechars := 70
  maxSegmentLength := 5.0

/-- The names of the settings. -/
inductive SettingKey
  | maxSeekSpeed
  | rasterFeedrate
  | numDigits
  | kerf
  | rasterOffset
  | rasterLinechars
  | maxSegmentLength
  deriving DecidableEq

/-- The name that a file uses for a setting. -/
def SettingKey.name : SettingKey → String
  | .maxSeekSpeed => "max_seek_speed"
  | .rasterFeedrate => "raster_feedrate"
  | .numDigits => "num_digits"
  | .kerf => "kerf"
  | .rasterOffset => "raster_offset"
  | .rasterLinechars => "raster_linechars"
  | .maxSegmentLength => "max_segment_length"

/-- What a setting has to be. -/
inductive SettingRule
  | positive
  | notNegative
  | atMost (limit : UInt64)
  deriving DecidableEq

/-- A rule in words. -/
def SettingRule.text : SettingRule → String
  | .positive => "must be > 0"
  | .notNegative => "must be >= 0"
  | .atMost limit => "must be <= " ++ toString limit.toNat

/-- A setting that breaks its rule. -/
structure SettingFault where
  key : SettingKey
  rule : SettingRule
  deriving DecidableEq

namespace Settings

/-- The most decimal places that a machine takes. -/
def maxDigits : UInt64 :=
  8

/-- Every rule with whether the settings keep it, in the order of checking. -/
def checks (settings : Settings) : List (SettingFault × Bool) :=
  [(⟨.maxSeekSpeed, .positive⟩, settings.maxSeekSpeed != 0),
    (⟨.rasterFeedrate, .positive⟩, settings.rasterFeedrate != 0),
    (⟨.numDigits, .atMost maxDigits⟩, settings.numDigits ≤ maxDigits),
    (⟨.kerf, .positive⟩, settings.kerf.isFinite && settings.kerf > 0),
    (⟨.rasterOffset, .notNegative⟩,
      settings.rasterOffset.isFinite && settings.rasterOffset ≥ 0),
    (⟨.rasterLinechars, .positive⟩, settings.rasterLinechars != 0),
    (⟨.maxSegmentLength, .positive⟩,
      settings.maxSegmentLength.isFinite && settings.maxSegmentLength > 0)]

/-- The first rule that the settings break. -/
def fault? (settings : Settings) : Option SettingFault :=
  (settings.checks.find? fun check => !check.2).map Prod.fst

/-- Whether two settings are the same as numbers, which makes both zeros alike. -/
def same (settings other : Settings) : Bool :=
  settings.maxSeekSpeed == other.maxSeekSpeed &&
    settings.rasterFeedrate == other.rasterFeedrate &&
    settings.numDigits == other.numDigits && settings.kerf == other.kerf &&
    settings.rasterOffset == other.rasterOffset &&
    settings.rasterLinechars == other.rasterLinechars &&
    settings.maxSegmentLength == other.maxSegmentLength

end Settings

/-- The feedrate of a pass about which nothing is said, in mm/min. -/
def defaultFeedrate : Float :=
  1200.0

/-- The intensity of a pass about which nothing is said, in percent. -/
def defaultIntensity : Float :=
  10.0

end LaserCut
