/-
# The text of a coordinate

A coordinate is its exact value, counted in units of the last place and rounded to the
nearest whole count, a tie away from zero.  The text is a minus if the number is below zero,
the digits of the whole part and, unless there are no places, a point and all digits of the
rest.  These conditions leave no other text: a whole part has no superfluous zeros, and the
rest has exactly as many digits as there are places.
-/

import Mathlib
import LaserCut.Proofs.Decimal.Order
import LaserCut.Proofs.Decimal.Reread

namespace LaserCut.Decimal

/-- The number that a finite double stands for. -/
def exactly (value : Float) : ℚ :=
  match Binary.ofFloat value with
  | .finite negative mantissa exponent =>
      if negative then -amount mantissa exponent else amount mantissa exponent
  | _ => 0

variable {value : Float} {negative : Bool} {mantissa places : Nat} {exponent : Int}

/-- The sign of a double does not belong to its magnitude. -/
theorem abs_exactly (parts : Binary.ofFloat value = .finite negative mantissa exponent) :
    |exactly value| = amount mantissa exponent := by
  have nonneg := amount_nonneg mantissa exponent
  simp only [exactly, parts]
  split_ifs
  · rw [abs_neg, abs_of_nonneg nonneg]
  · exact abs_of_nonneg nonneg

/-- A double is below zero if it has a minus and is no zero. -/
theorem lt_zero_iff (parts : Binary.ofFloat value = .finite negative mantissa exponent) :
    value < 0 ↔ negative ∧ mantissa ≠ 0 := by
  have finite : value.isFinite := (isFinite_iff value).mpr ⟨_, _, _, parts⟩
  have zero : (Binary.ofFloat 0).units = 0 := by decide
  have counts : 0 < unitsOf mantissa exponent ↔ mantissa ≠ 0 := by
    rw [unitsOf, Nat.mul_pos_iff_of_pos_right (Nat.two_pow_pos _), Nat.pos_iff_ne_zero]
  rw [lt_iff_units (units_lt_of_isFinite finite).1 (by decide), zero, parts, Binary.units, ← counts,
    signedInt]
  cases negative <;> simp

/-- Digits are the number without superfluous zeros. -/
structure IsWholeText (digits : List Char) (number : Nat) : Prop where
  digital : AllDigits digits
  denotes : valueOf digits = number
  nonempty : digits ≠ []
  short : digits.head? = some '0' → digits = ['0']

/-- Digits are the number with all places of a fraction. -/
structure IsFractionText (digits : List Char) (number places : Nat) : Prop where
  digital : AllDigits digits
  denotes : valueOf digits = number
  length : digits.length = places

/-- A whole number is written without superfluous zeros. -/
theorem isWholeText_digitsOf (number : Nat) : IsWholeText (digitsOf number) number where
  digital := allDigits_digitsOf number
  denotes := valueOf_digitsOf number
  nonempty := digitsOf_ne_nil number
  short zero := by
    rcases number.eq_zero_or_pos with rfl | positive
    · rfl
    · exact absurd zero (head?_digitsOf_ne_zero positive)

/-- A number with places is its whole part and, behind a point, the rest with all places. -/
theorem exists_withPlaces_eq (scaled places : Nat) : ∃ whole fraction,
    withPlaces scaled places = whole ++ (if places = 0 then [] else '.' :: fraction) ∧
      IsWholeText whole (scaled / 10 ^ places) ∧
      IsFractionText fraction (scaled % 10 ^ places) places := by
  rcases places.eq_zero_or_pos with rfl | positive
  · refine ⟨digitsOf scaled, [], ?_, ?_, ⟨nofun, ?_, rfl⟩⟩
    · simp [withPlaces]
    · simpa using isWholeText_digitsOf scaled
    · rw [pow_zero, Nat.mod_one]
      rfl
  · refine ⟨digitsOf (scaled / 10 ^ places), paddedFraction scaled places, ?_,
      isWholeText_digitsOf _, allDigits_paddedFraction scaled places,
      valueOf_paddedFraction scaled places, length_paddedFraction positive⟩
    rw [withPlaces_eq positive, if_neg positive.ne']

/-- A finite coordinate is its exact value to the nearest unit of the last place, an exact tie
away from zero, with a minus just if it is below zero. -/
theorem fixed_eq_sign_whole_fraction (finite : value.isFinite) (few : places ≤ 10) :
    let scaled := ⌊|exactly value| * 10 ^ places + 1 / 2⌋₊
    ∃ whole fraction,
      fixed value places =
        (if value < 0 then ['-'] else []) ++
          (whole ++ if places = 0 then [] else '.' :: fraction) ∧
      IsWholeText whole (scaled / 10 ^ places) ∧
      IsFractionText fraction (scaled % 10 ^ places) places := by
  intro scaled
  obtain ⟨negative, mantissa, exponent, parts⟩ := (isFinite_iff value).mp finite
  have counted : placeUnits mantissa exponent places = scaled := by
    rw [placeUnits, ← abs_exactly parts]
  obtain ⟨whole, fraction, text, digits, rest⟩ := exists_withPlaces_eq scaled places
  refine ⟨whole, fraction, ?_, digits, rest⟩
  rw [fixed_eq parts few, counted, text]
  simp only [lt_zero_iff parts]
  split_ifs <;> rfl

/-- A tie goes away from zero, through nines and into a new digit. -/
theorem fixed_tie_with_carry :
    fixed (-99.5) 0 = "-100".toList ∧
      ∃ whole fraction, fixed (-99.5) 0 = (if (-99.5 : Float) < 0 then ['-'] else []) ++
          (whole ++ if 0 = 0 then [] else '.' :: fraction) ∧
        IsWholeText whole (⌊|exactly (-99.5)| * 10 ^ 0 + 1 / 2⌋₊ / 10 ^ 0) ∧
        IsFractionText fraction (⌊|exactly (-99.5)| * 10 ^ 0 + 1 / 2⌋₊ % 10 ^ 0) 0 :=
  ⟨by decide +kernel, fixed_eq_sign_whole_fraction (by decide) (by decide)⟩

end LaserCut.Decimal
