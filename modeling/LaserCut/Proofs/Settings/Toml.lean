/-
# Settings in TOML files are read back

A file that is written for settings has a line for each of them, and the settings that
are read from it are those that were written.  TOML has no room for the largest whole
numbers, and no file is written for them.
-/

import Mathlib
import LaserCut.Settings.Toml
import LaserCut.Proofs.Keyed
import LaserCut.Proofs.Settings.Valid
import LaserCut.Proofs.Toml.Lines

namespace LaserCut.Settings

open Toml (IsBareKey IsNumber Value)

/-- A whole number that is written is one that a file has room for. -/
theorem wholeText?_eq_some_iff {n : Nat} {text : List Char} :
    wholeText? n = some text ↔ n < 0x8000000000000000 ∧ text = Decimal.digitsOf n := by
  rw [wholeText?]
  split_ifs with fits
  · simp [fits, eq_comm]
  · simp [fits]

/-- The lines of a file for settings: keys, texts and values. -/
def tomlEntries (settings : Settings) : List (String × List Char × Value) :=
  let decimal (key : SettingKey) (value : Float) : String × List Char × Value :=
    (key.name, Decimal.configuration.render value, .decimal value)
  let whole (key : SettingKey) (value : Nat) : String × List Char × Value :=
    (key.name, Decimal.digitsOf value, .integer value)
  [whole .maxSeekSpeed settings.maxSeekSpeed.toNat,
    whole .rasterFeedrate settings.rasterFeedrate.toNat,
    whole .numDigits settings.numDigits.toNat,
    decimal .kerf settings.kerf,
    decimal .rasterOffset settings.rasterOffset,
    whole .rasterLinechars settings.rasterLinechars.toNat,
    decimal .maxSegmentLength settings.maxSegmentLength]

/-- The names of settings are keys without quotes. -/
theorem isBareKey_name (key : SettingKey) : IsBareKey key.name := by
  cases key <;> exact ⟨by simp [SettingKey.name], by simp [SettingKey.name, Toml.isBare]⟩

variable {settings : Settings} {text : String}

/-- What is written for settings are their lines, if there is room for all numbers. -/
theorem toToml?_eq_some (written : settings.toToml? = some text) :
    text = String.ofList
        (settings.tomlEntries.flatMap fun entry => Toml.memberLine entry.1 entry.2.1) ∧
      settings.maxSeekSpeed.toNat < 0x8000000000000000 ∧
      settings.rasterFeedrate.toNat < 0x8000000000000000 ∧
      settings.numDigits.toNat < 0x8000000000000000 ∧
      settings.rasterLinechars.toNat < 0x8000000000000000 := by
  simp only [toToml?, bind, Option.bind_eq_some_iff, wholeText?_eq_some_iff, pure,
    Option.some.injEq] at written
  obtain ⟨_, ⟨seek, rfl⟩, _, ⟨feedrate, rfl⟩, _, ⟨digits, rfl⟩, _, ⟨linechars, rfl⟩, rfl⟩ := written
  refine ⟨?_, seek, feedrate, digits, linechars⟩
  simp [tomlEntries, line, Toml.memberLine]

/-- A whole number up to the limit is read as itself. -/
theorem wholeValue?_natCast {limit n : Nat} (small : n ≤ limit) :
    wholeValue? limit (.integer n) = some n := by
  rw [wholeValue?, if_pos ⟨Int.natCast_nonneg _, small⟩]
  rfl

/-- A whole number that fits a machine word is read as the word that is made of it. -/
theorem word?_natCast {α : Type} {size n : Nat} {ofNat : Nat → α} {value : α} (fits : n < size)
    (known : ofNat n = value) : word? size ofNat (.integer n) = some value := by
  rw [word?, wholeValue?_natCast (Nat.le_sub_one_of_lt fits), Option.map_some, known]

/-- A setting is read from the member under its name. -/
theorem member?_of_mem {α : Type} {members : Toml.Members}
    {key : SettingKey} (value : Value) (distinct : (members.map Prod.fst).Nodup)
    (inside : (key.name, value) ∈ members) {read : Value → Option α} {result : α}
    (known : read value = some result) : member? members key read = some (some result) := by
  have found : (Keyed.mk members distinct).get? key.name = some value := Keyed.get?_of_mem inside
  change members.lookup key.name = some value at found
  rw [member?, found]
  simp [known]

/-- Finite settings are read back from what is written for them. -/
theorem ofToml?_toToml? (finite : settings.IsFinite) (written : settings.toToml? = some text) :
    ofToml? text = some settings := by
  obtain ⟨rfl, seek, feedrate, digits, linechars⟩ := toToml?_eq_some written
  have keys : ∀ entry ∈ settings.tomlEntries, IsBareKey entry.1 := by
    simp [tomlEntries, isBareKey_name]
  have numbers : ∀ entry ∈ settings.tomlEntries, IsNumber entry.2.1 entry.2.2 := by
    simp [tomlEntries, Toml.isNumber_digitsOf, Toml.isNumber_configuration, seek, feedrate, digits,
      linechars, finite.kerf, finite.rasterOffset, finite.maxSegmentLength]
  have distinct : (settings.tomlEntries.map Prod.fst).Nodup := by
    simp [tomlEntries, SettingKey.name]
  let members := settings.tomlEntries.map fun entry => (entry.1, entry.2.2)
  have apart : (members.map Prod.fst).Nodup := by
    rw [List.map_map]
    exact distinct
  have seekRead : member? members .maxSeekSpeed word32? = some (some settings.maxSeekSpeed) :=
    member?_of_mem _ apart (by simp [members, tomlEntries])
      (word?_natCast (UInt32.toNat_lt_size _) UInt32.ofNat_toNat)
  have feedrateRead :
      member? members .rasterFeedrate word32? = some (some settings.rasterFeedrate) :=
    member?_of_mem _ apart (by simp [members, tomlEntries])
      (word?_natCast (UInt32.toNat_lt_size _) UInt32.ofNat_toNat)
  have digitsRead : member? members .numDigits word64? = some (some settings.numDigits) :=
    member?_of_mem _ apart (by simp [members, tomlEntries])
      (word?_natCast (UInt64.toNat_lt_size _) UInt64.ofNat_toNat)
  have kerfRead : member? members .kerf number? = some (some settings.kerf) :=
    member?_of_mem (.decimal settings.kerf) apart (by simp [members, tomlEntries]) rfl
  have offsetRead : member? members .rasterOffset number? = some (some settings.rasterOffset) :=
    member?_of_mem (.decimal settings.rasterOffset) apart (by simp [members, tomlEntries]) rfl
  have linecharsRead :
      member? members .rasterLinechars word64? = some (some settings.rasterLinechars) :=
    member?_of_mem _ apart (by simp [members, tomlEntries])
      (word?_natCast (UInt64.toNat_lt_size _) UInt64.ofNat_toNat)
  have lengthRead :
      member? members .maxSegmentLength number? = some (some settings.maxSegmentLength) :=
    member?_of_mem (.decimal settings.maxSegmentLength) apart (by simp [members, tomlEntries]) rfl
  have parsed := Toml.parse_numbers keys numbers distinct
  change _ = some members at parsed
  rw [ofToml?, parsed]
  simp [seekRead, feedrateRead, digitsRead, kerfRead, offsetRead, linecharsRead, lengthRead,
    SettingsDraft.complete]

end LaserCut.Settings
