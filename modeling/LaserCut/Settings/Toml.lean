/-
# Settings in TOML files

A whole number is taken for a setting with a fraction, but not the other way
round.  Keys and tables that name no setting are ignored.
-/

import LaserCut.Document.Settings
import LaserCut.Toml.Parser

namespace LaserCut.Settings

open Toml (Members Value)

/-- A setting of a file: nothing if the file leaves it out. -/
def member? {α : Type} (members : Members) (key : SettingKey) (read : Value → Option α) :
    Option (Option α) :=
  match members.lookup key.name with
  | none => some none
  | some value => (read value).map some

/-- A whole number up to a limit. -/
def wholeValue? (limit : Nat) : Value → Option Nat
  | .integer value => if 0 ≤ value ∧ value.toNat ≤ limit then some value.toNat else none
  | _ => none

/-- A machine word that is made of a whole number below its size. -/
def word? {α : Type} (size : Nat) (ofNat : Nat → α) (value : Value) : Option α :=
  (wholeValue? (size - 1) value).map ofNat

/-- A number of 32 bits. -/
def word32? : Value → Option UInt32 :=
  word? UInt32.size UInt32.ofNat

/-- A number of 64 bits. -/
def word64? : Value → Option UInt64 :=
  word? UInt64.size UInt64.ofNat

/-- A number with or without a fraction. -/
def number? : Value → Option Float
  | .integer value => some (Json.floatOfInt value)
  | .decimal value => some value
  | _ => none

/-- Reads settings from a TOML file. -/
def ofToml? (text : String) : Option Settings := do
  let members ← Toml.parse text
  let draft : SettingsDraft :=
    { maxSeekSpeed := ← member? members .maxSeekSpeed word32?
      rasterFeedrate := ← member? members .rasterFeedrate word32?
      numDigits := ← member? members .numDigits word64?
      kerf := ← member? members .kerf number?
      rasterOffset := ← member? members .rasterOffset number?
      rasterLinechars := ← member? members .rasterLinechars word64?
      maxSegmentLength := ← member? members .maxSegmentLength number? }
  return draft.complete

/-- A line of a file. -/
def line (key : SettingKey) (value : List Char) : List Char :=
  key.name.toList ++ " = ".toList ++ value ++ ['\n']

/-- A whole number for a file; TOML has no room for the largest ones. -/
def wholeText? (value : Nat) : Option (List Char) :=
  if value < 0x8000000000000000 then some (Decimal.digitsOf value) else none

/-- Settings as a TOML file has them. -/
def toToml? (settings : Settings) : Option String := do
  let decimal := Decimal.configuration.render
  let maxSeekSpeed ← wholeText? settings.maxSeekSpeed.toNat
  let rasterFeedrate ← wholeText? settings.rasterFeedrate.toNat
  let numDigits ← wholeText? settings.numDigits.toNat
  let rasterLinechars ← wholeText? settings.rasterLinechars.toNat
  return String.ofList <|
    line .maxSeekSpeed maxSeekSpeed ++
    line .rasterFeedrate rasterFeedrate ++
    line .numDigits numDigits ++
    line .kerf (decimal settings.kerf) ++
    line .rasterOffset (decimal settings.rasterOffset) ++
    line .rasterLinechars rasterLinechars ++
    line .maxSegmentLength (decimal settings.maxSegmentLength)

end LaserCut.Settings
