/-
# Instructions that are written and read

Each instruction has the words that its line is read as, coordinates being the
numbers that their fixed places denote.  Lines that belong to a raster have no
words.
-/

import Mathlib
import LaserCut.Machine.Instruction
import LaserCut.Proofs.Job.Content
import LaserCut.Proofs.Machine.Limits
import LaserCut.Proofs.Machine.Word

namespace LaserCut

/-- The coordinate that the fixed places of another one denote. -/
def Decimal.reread (places : Nat) (value : Float) : Float :=
  (Decimal.read? (Decimal.fixed value places)).getD value

/-- The point that the fixed places of another one denote. -/
def Point.reread (places : Nat) (point : Point Float) : Point Float :=
  ⟨Decimal.reread places point.x, Decimal.reread places point.y⟩

namespace Machine

open Decimal

namespace Instruction

/-- The words of a point. -/
def axes (point : Point Float) : List Word :=
  [⟨'X', point.x⟩, ⟨'Y', point.y⟩]

/-- The words that the line of an instruction is read as. -/
def words (places : Nat) : Instruction → List Word
  | absolute => [⟨'G', Float.ofNat 90⟩]
  | airOn => [⟨'M', Float.ofNat 80⟩]
  | airOff => [⟨'M', Float.ofNat 81⟩]
  | seekRate rate => [⟨'G', Float.ofNat 0⟩, ⟨'F', Float.ofNat rate⟩]
  | engraveRate rate => [⟨'G', Float.ofNat 1⟩, ⟨'F', Float.ofNat rate⟩]
  | feedRate rate => [⟨'G', Float.ofNat 1⟩, ⟨'F', rate⟩]
  | power level => [⟨'S', Float.ofNat level⟩]
  | seek target => ⟨'G', Float.ofNat 0⟩ :: axes (target.reread places)
  | feed target => ⟨'G', Float.ofNat 1⟩ :: axes (target.reread places)
  | frame corner => ⟨'G', Float.ofNat 0⟩ :: axes (corner.reread framePlaces)
  | home rate => ⟨'G', Float.ofNat 0⟩ :: axes ⟨Float.ofNat 0, Float.ofNat 0⟩ ++
      [⟨'F', Float.ofNat rate⟩]
  | dotPitch _ => []
  | runway _ => []
  | nextRow => []
  | samples _ => []

/-- Whether the numbers of an instruction can be read: coordinates are finite,
and a feedrate is written as a number that denotes it. -/
def IsReadable : Instruction → Prop
  | feedRate rate => (∃ value, Denotes (numberText rate) value) ∧
      read? (numberText rate) = some rate
  | seek target => target.IsFinite
  | feed target => target.IsFinite
  | frame corner => corner.IsFinite
  | _ => True

end Instruction

/-- Digits and points are numerals. -/
theorem isNumeral_of_denotes {text : List Char} {value : ℚ} (known : Denotes text value) :
    ∀ c ∈ text, isNumeral c = true := by
  intro c inside
  rcases known.mem inside with digit | rfl
  · simp [isNumeral, digit]
  · rfl

/-- A fixed number is made of numerals. -/
theorem isNumeral_fixed {value : Float} (finite : value.isFinite) (places : Nat) :
    ∀ c ∈ fixed value places, isNumeral c = true := by
  obtain ⟨negative, mantissa, exponent, parts⟩ := (isFinite_iff value).mp finite
  obtain ⟨magnitude, known, denotes, same | minus⟩ := fixed_of_finite parts places
  · rw [same]
    exact isNumeral_of_denotes denotes
  · rw [minus]
    exact List.forall_mem_cons.mpr ⟨rfl, isNumeral_of_denotes denotes⟩

/-- A fixed number is read as what it denotes. -/
theorem read?_fixed_eq {value : Float} (finite : value.isFinite) (places : Nat) :
    read? (fixed value places) = some (reread places value) := by
  obtain ⟨negative, mantissa, exponent, parts⟩ := (isFinite_iff value).mp finite
  obtain ⟨read, known⟩ := read?_fixed parts places
  rw [reread, known, Option.getD_some]

/-- A letter with a whole number is a word. -/
theorem isWritten_whole {letter : Char} (known : letter ∈ commandLetters) (n : Nat) :
    IsWritten (letter :: digitsOf n) ⟨letter, Float.ofNat n⟩ where
  letter := known
  head := rfl
  numerals := isNumeral_of_denotes (denotes_digitsOf n)
  reads := read?_digitsOf n

/-- A letter with a fixed number is a word. -/
theorem isWritten_fixed {letter : Char} (known : letter ∈ commandLetters) {value : Float}
    (finite : value.isFinite) (places : Nat) :
    IsWritten (letter :: fixed value places) ⟨letter, reread places value⟩ where
  letter := known
  head := rfl
  numerals := isNumeral_fixed finite places
  reads := read?_fixed_eq finite places

/-- The texts of a point are its words. -/
theorem isWritten_axes {point : Point Float} (finite : point.IsFinite) (places : Nat) :
    List.Forall₂ IsWritten ['X' :: fixed point.x places, 'Y' :: fixed point.y places]
      (Instruction.axes (point.reread places)) :=
  .cons (isWritten_fixed (by simp [commandLetters]) finite.1 places)
    (.cons (isWritten_fixed (by simp [commandLetters]) finite.2 places) .nil)

/-- The words of a point as one text. -/
theorem pointWords_eq (places : Nat) (point : Point Float) :
    pointWords places point =
      List.flatten ['X' :: fixed point.x places, 'Y' :: fixed point.y places] := by
  simp [pointWords]

/-- A line that starts with another letter belongs to no raster. -/
theorem isRasterLine_of_letter {c : Char} {rest : List Char} (visible : Text.isBlank c = false)
    (other : c ≠ 'G' ∧ c ≠ 'g') : isRasterLine (c :: rest) = false := by
  have trimmed : Text.trimStart (c :: rest) = c :: rest := by
    simp [Text.trimStart, visible]
  rw [isRasterLine, trimmed]
  simp [other]

/-- A line that starts with `G` and other digits than those of an eight belongs
to no raster. -/
theorem isRasterLine_of_code {digits rest : List Char} (digital : AllDigits digits)
    (ends : ∀ c ∈ rest.head?, c.isDigit = false) (other : valueOf digits ≠ 8) :
    isRasterLine ('G' :: (digits ++ rest)) = false := by
  rw [isRasterLine_of_digits digital ends, beq_eq_false_iff_ne]
  exact other

/-- A line of a raster has no words. -/
theorem lineWords_raster (rest : List Char) (ends : ∀ c ∈ rest.head?, c.isDigit = false) :
    lineWords ('G' :: '8' :: rest) = .ok [] := by
  have raster : isRasterLine ('G' :: (['8'] ++ rest)) = true := by
    rw [isRasterLine_of_digits (by simp [AllDigits]) ends]
    decide
  rw [lineWords]
  exact if_pos raster

/-- A line of a code and further words is read as these. -/
theorem lineWords_code {code : List Char} {texts : List (List Char)} {words : List Word}
    {value : Float} (nonempty : code ≠ []) (digital : AllDigits code) (other : valueOf code ≠ 8)
    (reads : read? code = some value) (written : List.Forall₂ IsWritten texts words) :
    lineWords ('G' :: (code ++ texts.flatten)) = .ok (⟨'G', value⟩ :: words) := by
  have first : IsWritten ('G' :: code) ⟨'G', value⟩ :=
    ⟨by simp [commandLetters], rfl, isNumeral_of_denotes (.whole nonempty digital), reads⟩
  have ends : ∀ c ∈ texts.flatten.head?, c.isDigit = false := by
    intro c found
    have numeral := head_flatten_of_written written c found
    rw [isNumeral] at numeral
    simp only [Bool.or_eq_false_iff] at numeral
    exact numeral.1.1.1
  have split : ('G' :: code) ++ texts.flatten = (('G' :: code) :: texts).flatten := rfl
  have line := isRasterLine_of_code digital ends other
  rw [← List.cons_append, split] at line ⊢
  exact lineWords_written (.cons first written) line

/-- A line of one word with another letter is read as this. -/
theorem lineWords_single {letter : Char} (known : letter ∈ commandLetters) (other : letter ≠ 'G')
    (n : Nat) : lineWords (letter :: digitsOf n) = .ok [⟨letter, Float.ofNat n⟩] := by
  have visible := (commandLetters_spec letter known).2.2.2.1
  have lower : letter ≠ 'g' := by
    rintro rfl
    exact absurd known (by decide)
  have written := List.Forall₂.cons (isWritten_whole known n) .nil
  have line := lineWords_written written (by
    rw [List.flatten_cons]
    exact isRasterLine_of_letter visible ⟨other, lower⟩)
  simpa using line

/-- The line of an instruction is read as its words. -/
theorem lineWords_render (places : Nat) {instruction : Instruction}
    (readable : instruction.IsReadable) :
    lineWords (instruction.render places) = .ok (instruction.words places) := by
  have zero : read? ['0'] = some (Float.ofNat 0) := read?_digitsOf 0
  have one : read? ['1'] = some (Float.ofNat 1) := read?_digitsOf 1
  have digit0 : AllDigits ['0'] := by simp [AllDigits]
  have digit1 : AllDigits ['1'] := by simp [AllDigits]
  have rateText (n : Nat) : List.Forall₂ IsWritten ['F' :: digitsOf n] [⟨'F', Float.ofNat n⟩] :=
    .cons (isWritten_whole (by simp [commandLetters]) n) .nil
  cases instruction with
  | absolute =>
      have ninety : read? ['9', '0'] = some (Float.ofNat 90) := read?_digitsOf 90
      exact lineWords_code (by simp) (by simp [AllDigits]) (by decide) ninety .nil
  | airOn => exact lineWords_single (by simp [commandLetters] : 'M' ∈ commandLetters) (by decide) 80
  | airOff => exact lineWords_single (by simp [commandLetters] : 'M' ∈ commandLetters) (by decide) 81
  | seekRate rate =>
      have line := lineWords_code (by simp) digit0 (by decide) zero (rateText rate)
      rw [List.flatten_cons, List.flatten_nil, List.append_nil] at line
      exact line
  | engraveRate rate =>
      have line := lineWords_code (by simp) digit1 (by decide) one (rateText rate)
      rw [List.flatten_cons, List.flatten_nil, List.append_nil] at line
      exact line
  | feedRate rate =>
      obtain ⟨⟨value, denotes⟩, reads⟩ := readable
      have word : IsWritten ('F' :: numberText rate) ⟨'F', rate⟩ :=
        ⟨by simp [commandLetters], rfl, isNumeral_of_denotes denotes, reads⟩
      have line := lineWords_code (by simp) digit1 (by decide) one (.cons word .nil)
      rw [List.flatten_cons, List.flatten_nil, List.append_nil] at line
      exact line
  | power level => exact lineWords_single (by simp [commandLetters]) (by decide) level
  | seek target =>
      have line := lineWords_code (by simp) digit0 (by decide) zero (isWritten_axes readable places)
      rw [← pointWords_eq] at line
      exact line
  | feed target =>
      have line := lineWords_code (by simp) digit1 (by decide) one (isWritten_axes readable places)
      rw [← pointWords_eq] at line
      exact line
  | frame corner =>
      have double_zero : read? ['0', '0'] = some (Float.ofNat 0) := by decide
      have line := lineWords_code (by simp) (by simp [AllDigits]) (by decide) double_zero
        (isWritten_axes readable framePlaces)
      rw [← pointWords_eq] at line
      exact line
  | home rate =>
      have x : IsWritten ['X', '0'] ⟨'X', Float.ofNat 0⟩ :=
        ⟨by simp [commandLetters], rfl, by simp [isNumeral], zero⟩
      have y : IsWritten ['Y', '0'] ⟨'Y', Float.ofNat 0⟩ :=
        ⟨by simp [commandLetters], rfl, by simp [isNumeral], zero⟩
      have line := lineWords_code (by simp) digit0 (by decide) zero
        (.cons x (.cons y (rateText rate)))
      simp only [List.flatten_cons, List.flatten_nil, List.append_nil] at line
      exact line
  | dotPitch pitch => exact lineWords_raster ('P' :: fixed pitch (places + 2)) (by simp)
  | runway length => exact lineWords_raster ('X' :: fixed length places) (by simp)
  | nextRow => exact lineWords_raster ['N'] (by simp)
  | samples data => exact lineWords_raster ('D' :: Sample.text data) (by simp)

end Machine

end LaserCut
