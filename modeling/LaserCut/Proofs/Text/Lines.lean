/-
# Lines that are written and read

A program is written line by line, each line with a line feed after it.  What
is read from it are the same lines, as long as no line holds a line feed and
none ends in a carriage return.  Visible characters are neither.
-/

import Mathlib
import LaserCut.Text.Blank
import LaserCut.Text.Lines

namespace LaserCut.Text

/-- The characters from `!` to `~`: ASCII without blanks and control characters. -/
def IsVisible (c : Char) : Prop :=
  33 ≤ c.toNat ∧ c.toNat ≤ 126

instance (c : Char) : Decidable (IsVisible c) :=
  inferInstanceAs (Decidable (_ ∧ _))

/-- Visible characters do not end a line. -/
theorem lineFeed_notMem_of_visible {line : List Char} (visible : ∀ c ∈ line, IsVisible c) :
    '\n' ∉ line :=
  fun inside => absurd (visible '\n' inside) (by decide)

/-- Visible characters are not part of the ending of a line. -/
theorem dropReturn_of_visible {line : List Char} (visible : ∀ c ∈ line, IsVisible c) :
    dropReturn line = line := by
  have last : line.getLast? ≠ some '\r' := fun h =>
    absurd (visible '\r' (List.mem_of_getLast? h)) (by decide)
  rw [dropReturn, if_neg last]

/-- A line that is written first is split off first. -/
theorem splitLines_append {line : List Char} (rest : List Char) (unbroken : '\n' ∉ line) :
    splitLines (line ++ '\n' :: rest) = line :: splitLines rest := by
  induction line with
  | nil => rfl
  | cons c line ih =>
      obtain ⟨other, later⟩ := not_or.mp fun h => unbroken (List.mem_cons.mpr h)
      have step : splitLines (c :: (line ++ '\n' :: rest)) =
          pushChar c (splitLines (line ++ '\n' :: rest)) := rfl
      rw [List.cons_append, step, ih later, pushChar, if_neg (Ne.symm other)]

/-- Lines that are written one after the other are split into the same lines.
The empty piece at the end is what follows the last line feed. -/
theorem splitLines_flatMap {lines : List (List Char)} (unbroken : ∀ line ∈ lines, '\n' ∉ line) :
    splitLines (lines.flatMap fun line => line ++ ['\n']) = lines ++ [[]] := by
  induction lines with
  | nil => rfl
  | cons line rest ih =>
      obtain ⟨first, others⟩ := List.forall_mem_cons.mp unbroken
      rw [List.flatMap_cons, List.append_assoc, List.singleton_append,
        splitLines_append _ first, ih others, List.cons_append]

/-- Lines of visible characters are read as they were written. -/
theorem lines_flatMap {lines : List (List Char)}
    (visible : ∀ line ∈ lines, ∀ c ∈ line, IsVisible c) :
    Text.lines (lines.flatMap fun line => line ++ ['\n']) = lines := by
  have pieces := splitLines_flatMap fun line inside =>
    lineFeed_notMem_of_visible (visible line inside)
  have unchanged : lines.map dropReturn = lines := by
    conv_rhs => rw [← List.map_id lines]
    exact List.map_congr_left fun line inside => dropReturn_of_visible (visible line inside)
  simp [Text.lines, pieces, unchanged]

end LaserCut.Text
