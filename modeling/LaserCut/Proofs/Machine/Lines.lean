/-
# Lines of a program

Every line of a program is made of visible characters, its raster data as long
as they are samples.  A program is therefore read line by line as it was
written.
-/

import Mathlib
import LaserCut.Machine.Program
import LaserCut.Proofs.Machine.Rendering
import LaserCut.Proofs.Raster
import LaserCut.Proofs.Text.Lines

namespace LaserCut

namespace Machine

open Decimal

/-- Whether the samples of a data line are samples. -/
def Instruction.IsSampled : Instruction → Prop
  | samples data => ∀ byte ∈ data, Sample.isValid byte = true
  | _ => True

/-- Texts can be looked through for visible characters. -/
theorem isVisible_of_all {text : List Char}
    (visible : text.all (fun c => decide (Text.IsVisible c)) = true) :
    ∀ c ∈ text, Text.IsVisible c :=
  fun c inside => of_decide_eq_true (List.all_eq_true.mp visible c inside)

/-- Digits are visible. -/
theorem isVisible_of_isDigit {c : Char} (digit : c.isDigit = true) : Text.IsVisible c := by
  have range := toNat_of_isDigit digit
  exact ⟨by omega, by omega⟩

/-- Written whole numbers are visible. -/
theorem isVisible_digitsOf (n : Nat) : ∀ c ∈ digitsOf n, Text.IsVisible c :=
  fun c inside => isVisible_of_isDigit (allDigits_digitsOf n c inside)

/-- Numeric characters are visible. -/
theorem isVisible_of_isNumeric {c : Char} (numeric : IsNumeric c) : Text.IsVisible c := by
  rcases numeric with digit | sign
  · exact isVisible_of_isDigit digit
  · exact isVisible_of_all (by decide) c sign

/-- The text of a number in a word is visible. -/
theorem isVisible_numberText (value : Float) : ∀ c ∈ numberText value, Text.IsVisible c := by
  rw [numberText]
  cases parts : Binary.ofFloat value with
  | nan =>
      dsimp only
      exact isVisible_of_all (by decide)
  | infinite negative =>
      dsimp only
      cases negative <;> exact isVisible_of_all (by decide)
  | finite negative mantissa exponent =>
      dsimp only
      split_ifs
      · exact isVisible_of_all (by decide)
      · exact fun c inside => isVisible_of_isNumeric (isNumeric_of_mem_render parts inside)

/-- Coordinates are visible. -/
theorem isVisible_fixed (value : Float) (places : Nat) :
    ∀ c ∈ fixed value places, Text.IsVisible c := by
  cases parts : Binary.ofFloat value with
  | nan =>
      rw [fixed, parts]
      dsimp only
      exact isVisible_of_all (by decide)
  | infinite negative =>
      rw [fixed, parts]
      dsimp only
      cases negative <;> exact isVisible_of_all (by decide)
  | finite negative mantissa exponent =>
      obtain ⟨magnitude, known, denotes, same | minus⟩ := fixed_of_finite parts places
      all_goals
        have digital : ∀ c ∈ magnitude, Text.IsVisible c := by
          intro c inside
          rcases denotes.mem inside with digit | rfl
          · exact isVisible_of_isDigit digit
          · decide
      · rwa [same]
      · rw [minus]
        exact List.forall_mem_cons.mpr ⟨by decide, digital⟩

/-- Samples are visible. -/
theorem isVisible_text {data : List UInt8} (valid : ∀ byte ∈ data, Sample.isValid byte = true) :
    ∀ c ∈ Sample.text data, Text.IsVisible c := by
  intro c inside
  obtain ⟨byte, member, rfl⟩ := List.mem_map.mp inside
  obtain ⟨low, high⟩ := Sample.isValid_iff.mp (valid byte member)
  rw [Text.IsVisible, Sample.toNat_char]
  exact ⟨low, high.trans (by decide)⟩

/-- The words of a point are visible. -/
theorem isVisible_pointWords (places : Nat) (point : Point Float) :
    ∀ c ∈ pointWords places point, Text.IsVisible c := by
  simp only [pointWords, List.forall_mem_append, List.forall_mem_cons]
  exact ⟨⟨by decide, isVisible_fixed _ _⟩, by decide, isVisible_fixed _ _⟩

/-- The line of an instruction is visible. -/
theorem isVisible_render (places : Nat) {instruction : Instruction}
    (sampled : instruction.IsSampled) :
    ∀ c ∈ instruction.render places, Text.IsVisible c := by
  cases instruction with
  | absolute => exact @isVisible_of_all "G90".toList (by decide)
  | airOn => exact @isVisible_of_all "M80".toList (by decide)
  | airOff => exact @isVisible_of_all "M81".toList (by decide)
  | nextRow => exact @isVisible_of_all "G8N".toList (by decide)
  | power level => exact List.forall_mem_cons.mpr ⟨by decide, isVisible_digitsOf level⟩
  | seekRate rate =>
      exact List.forall_mem_append.mpr ⟨isVisible_of_all (by decide), isVisible_digitsOf rate⟩
  | engraveRate rate =>
      exact List.forall_mem_append.mpr ⟨isVisible_of_all (by decide), isVisible_digitsOf rate⟩
  | feedRate rate =>
      exact List.forall_mem_append.mpr ⟨isVisible_of_all (by decide), isVisible_numberText rate⟩
  | home rate =>
      exact List.forall_mem_append.mpr ⟨isVisible_of_all (by decide), isVisible_digitsOf rate⟩
  | seek target =>
      exact List.forall_mem_append.mpr
        ⟨isVisible_of_all (by decide), isVisible_pointWords places target⟩
  | feed target =>
      exact List.forall_mem_append.mpr
        ⟨isVisible_of_all (by decide), isVisible_pointWords places target⟩
  | frame corner =>
      exact List.forall_mem_append.mpr
        ⟨isVisible_of_all (by decide), isVisible_pointWords framePlaces corner⟩
  | dotPitch pitch =>
      exact List.forall_mem_append.mpr ⟨isVisible_of_all (by decide), isVisible_fixed pitch _⟩
  | runway length =>
      exact List.forall_mem_append.mpr ⟨isVisible_of_all (by decide), isVisible_fixed length _⟩
  | samples data =>
      exact List.forall_mem_append.mpr ⟨isVisible_of_all (by decide), isVisible_text sampled⟩

/-- A program is read in the lines in which it was written. -/
theorem lines_programText (places : Nat) {program : List Instruction}
    (sampled : ∀ instruction ∈ program, instruction.IsSampled) :
    Text.lines (programText places program) = program.map (Instruction.render places) := by
  have visible : ∀ line ∈ program.map (Instruction.render places), ∀ c ∈ line,
      Text.IsVisible c := by
    intro line inside
    obtain ⟨instruction, member, rfl⟩ := List.mem_map.mp inside
    exact isVisible_render places (sampled instruction member)
  have read := Text.lines_flatMap visible
  rwa [List.flatMap_map] at read

/-- Split at its line feeds, a program is its lines and the empty rest. -/
theorem splitLines_programText (places : Nat) {program : List Instruction}
    (sampled : ∀ instruction ∈ program, instruction.IsSampled) :
    Text.splitLines (programText places program) =
      program.map (Instruction.render places) ++ [[]] := by
  have unbroken : ∀ line ∈ program.map (Instruction.render places), '\n' ∉ line := by
    intro line inside
    obtain ⟨instruction, member, rfl⟩ := List.mem_map.mp inside
    exact Text.lineFeed_notMem_of_visible (isVisible_render places (sampled instruction member))
  have read := Text.splitLines_flatMap unbroken
  rwa [List.flatMap_map] at read

end Machine

end LaserCut
