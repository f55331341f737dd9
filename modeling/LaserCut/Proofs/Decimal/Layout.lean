/-
# The characters of written doubles

Whatever the layout, a finite double is written with digits, signs, a point
and the mark of an exponent.  None of them ends a line or a value, and none of
them is white space.
-/

import Mathlib
import LaserCut.Decimal.Layout
import LaserCut.Proofs.Decimal.Digits

namespace LaserCut.Decimal

/-- The characters with which finite doubles are written. -/
def IsNumeric (c : Char) : Prop :=
  c.isDigit = true ∨ c ∈ ['-', '+', '.', 'e']

/-- Zeros are numeric. -/
theorem isNumeric_of_mem_zeros {count : Nat} {c : Char}
    (inside : c ∈ List.replicate count '0') : IsNumeric c :=
  .inl (allDigits_zeros count c inside)

/-- Dropping zeros from the end adds no character. -/
theorem mem_of_mem_dropTrailingZeros {digits : List Char} {c : Char}
    (inside : c ∈ dropTrailingZeros digits) : c ∈ digits := by
  rw [dropTrailingZeros, List.mem_reverse] at inside
  exact List.mem_reverse.mp ((List.dropWhile_suffix _).subset inside)

/-- The shortest digits of a double are digits. -/
theorem allDigits_shortest (tie : Tie) (mantissa : Nat) (exponent : Int) :
    AllDigits (shortest tie mantissa exponent).digits := by
  simp only [shortest]
  cases found : List.findSome? _ (List.range 17) with
  | none => exact fun c inside => by rw [List.mem_singleton.mp inside]; rfl
  | some number =>
      obtain ⟨count, -, hit⟩ := List.exists_of_findSome?_eq_some found
      obtain ⟨point, -, rfl⟩ := Option.map_eq_some_iff.mp hit
      exact fun c inside => allDigits_digitsOf point c (mem_of_mem_dropTrailingZeros inside)

/-- The significant digits of a double are digits. -/
theorem allDigits_significant (tie : Tie) (mantissa : Nat) (exponent : Int) :
    AllDigits (significant tie mantissa exponent).digits := by
  rw [significant]
  split_ifs
  · exact fun c inside => by rw [List.mem_singleton.mp inside]; rfl
  · exact allDigits_shortest tie mantissa exponent

/-- A number that is written out is numeric. -/
theorem isNumeric_of_mem_writtenOut {keepsPoint : Bool} {number : Significant}
    (digital : AllDigits number.digits) {c : Char}
    (inside : c ∈ writtenOut keepsPoint number) : IsNumeric c := by
  have fromDigits : ∀ {d}, d ∈ number.digits → IsNumeric d := fun h => .inl (digital _ h)
  have zero : IsNumeric '0' := .inl rfl
  have point : IsNumeric '.' := .inr (by simp)
  simp only [writtenOut] at inside
  split_ifs at inside <;>
    simp only [List.mem_cons, List.mem_append, List.not_mem_nil, or_false] at inside
  · rcases inside with (rfl | rfl | zeros) | digits
    exacts [zero, point, isNumeric_of_mem_zeros zeros, fromDigits digits]
  · rcases inside with (digits | zeros) | rfl | rfl
    exacts [fromDigits digits, isNumeric_of_mem_zeros zeros, point, zero]
  · rcases inside with digits | zeros
    exacts [fromDigits digits, isNumeric_of_mem_zeros zeros]
  · rcases inside with front | rfl | back
    exacts [fromDigits (List.mem_of_mem_take front), point,
      fromDigits (List.mem_of_mem_drop back)]

/-- A number with an exponent is numeric. -/
theorem isNumeric_of_mem_withExponent {number : Significant}
    (digital : AllDigits number.digits) {c : Char}
    (inside : c ∈ withExponent number) : IsNumeric c := by
  simp only [withExponent, List.mem_append, List.mem_cons] at inside
  rcases inside with (first | fraction) | rfl | rfl | power
  · exact .inl (digital _ (List.mem_of_mem_take first))
  · split_ifs at fraction with short
    · simp at fraction
    · rcases List.mem_cons.mp fraction with rfl | behind
      · exact .inr (by simp)
      · exact .inl (digital _ (List.mem_of_mem_drop behind))
  · exact .inr (by simp)
  · split_ifs <;> exact .inr (by simp)
  · exact .inl (allDigits_digitsOf _ _ power)

/-- A finite double is numeric in every layout. -/
theorem isNumeric_of_mem_render {form : Layout} {value : Float} {negative : Bool}
    {mantissa : Nat} {exponent : Int}
    (finite : Binary.ofFloat value = .finite negative mantissa exponent) {c : Char}
    (inside : c ∈ form.render value) : IsNumeric c := by
  have digital := allDigits_significant form.tie mantissa exponent
  have magnitude : ∀ d, d ∈ (if form.positional (significant form.tie mantissa exponent).exponent
      then writtenOut form.keepsPoint (significant form.tie mantissa exponent)
      else withExponent (significant form.tie mantissa exponent)) → IsNumeric d := by
    intro d within
    split_ifs at within
    exacts [isNumeric_of_mem_writtenOut digital within,
      isNumeric_of_mem_withExponent digital within]
  simp only [Layout.render, finite] at inside
  cases negative with
  | false => exact magnitude c inside
  | true =>
      rcases List.mem_cons.mp inside with rfl | within
      · exact .inr (by simp)
      · exact magnitude c within

end LaserCut.Decimal
