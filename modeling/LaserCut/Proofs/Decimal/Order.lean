/-
# The order of doubles

Doubles that are no NaN are ordered as integers, by how often they count the least positive
double.  Zeros of either sign count alike, so of two doubles that are equal as numbers
either is not above the other.
-/

import Mathlib
import LaserCut.Proofs.Decimal.Double

namespace LaserCut.Decimal

open Float.Model (UnpackedFloat)

variable {left right middle : Float}

/-- A finite double is a number below the count of infinity. -/
theorem units_lt_of_isFinite {value : Float} (finite : value.isFinite) :
    value.isNaN = false ∧ (Binary.ofFloat value).units < overflowUnits := by
  obtain ⟨negative, mantissa, exponent, parts⟩ := (isFinite_iff value).mp finite
  have below := (isCanonical_of_ofFloat parts).unitsOf_lt
  constructor
  · rw [← Bool.not_eq_true, isNaN_iff, parts]
    exact nofun
  · rw [parts, Binary.units, signedInt]
    split_ifs <;> omega

/-- What is compared with something is a number. -/
theorem isNaN_of_compare {order : Ordering}
    (known : left.toModel.unpack.compare right.toModel.unpack = some order) :
    left.isNaN = false ∧ right.isNaN = false := by
  rw [Float.isNaN, Float.isNaN, Float.Model.isNaN, Float.Model.isNaN]
  generalize left.toModel.unpack = first at known ⊢
  generalize right.toModel.unpack = second at known ⊢
  cases first with
  | notANumber => cases second <;> cases known
  | infinity sign => cases second <;> first | exact ⟨rfl, rfl⟩ | (cases sign <;> cases known)
  | zero sign => cases second <;> first | exact ⟨rfl, rfl⟩ | cases known
  | finite sign => cases second <;> first | exact ⟨rfl, rfl⟩ | (cases sign <;> cases known)

/-- Core compares doubles by their counts. -/
theorem compare_eq_units (number : left.isNaN = false) (numeral : right.isNaN = false) :
    left.toModel.unpack.compare right.toModel.unpack =
      some (compare (Binary.ofFloat left).units (Binary.ofFloat right).units) := by
  rw [ofFloat_eq, ofFloat_eq]
  exact compare_unpacked (isDouble_unpack left) (isDouble_unpack right)
    (unpack_ne_notANumber number) (unpack_ne_notANumber numeral)

/-- A double is below another one if both are numbers and count so. -/
theorem lt_iff : left < right ↔ left.isNaN = false ∧ right.isNaN = false ∧
    (Binary.ofFloat left).units < (Binary.ofFloat right).units := by
  constructor
  · intro below
    have order : left.toModel.unpack.compare right.toModel.unpack = some .lt :=
      eq_of_beq (of_decide_eq_true below)
    obtain ⟨number, numeral⟩ := isNaN_of_compare order
    exact ⟨number, numeral, (lt_iff_units number numeral).mp below⟩
  · exact fun ⟨number, numeral, below⟩ => (lt_iff_units number numeral).mpr below

/-- A double is not above another one if both are numbers and count so. -/
theorem le_iff : left ≤ right ↔ left.isNaN = false ∧ right.isNaN = false ∧
    (Binary.ofFloat left).units ≤ (Binary.ofFloat right).units := by
  have known : left ≤ right ↔
      (left.toModel.unpack.compare right.toModel.unpack).any (·.isLE) = true := by
    change decide (left.toModel.unpack.le right.toModel.unpack = true) = true ↔ _
    rw [decide_eq_true_iff]
    rfl
  rw [known]
  constructor
  · intro below
    obtain ⟨order, compared, -⟩ := (Option.any_eq_true _ _).mp below
    obtain ⟨number, numeral⟩ := isNaN_of_compare compared
    rw [compare_eq_units number numeral, Option.any_some, Std.isLE_compare] at below
    exact ⟨number, numeral, below⟩
  · rintro ⟨number, numeral, below⟩
    rw [compare_eq_units number numeral, Option.any_some, Std.isLE_compare]
    exact below

/-- Doubles are equal if both are numbers and count alike. -/
theorem beq_iff : (left == right) = true ↔ left.isNaN = false ∧ right.isNaN = false ∧
    (Binary.ofFloat left).units = (Binary.ofFloat right).units := by
  have known : (left == right) = true ↔
      left.toModel.unpack.compare right.toModel.unpack = some .eq := by
    change (left.toModel.unpack.compare right.toModel.unpack == some .eq) = true ↔ _
    rw [beq_iff_eq]
  rw [known]
  constructor
  · intro same
    obtain ⟨number, numeral⟩ := isNaN_of_compare same
    rw [compare_eq_units number numeral, Option.some.injEq, compare_eq_iff_eq] at same
    exact ⟨number, numeral, same⟩
  · rintro ⟨number, numeral, same⟩
    rw [compare_eq_units number numeral, same, compare_eq_iff_eq.mpr rfl]

/-- A number is not above itself. -/
protected theorem le_refl {value : Float} (number : value.isNaN = false) : value ≤ value :=
  le_iff.mpr ⟨number, number, le_rfl⟩

protected theorem le_trans (first : left ≤ middle) (second : middle ≤ right) : left ≤ right :=
  le_iff.mpr ⟨(le_iff.mp first).1, (le_iff.mp second).2.1,
    (le_iff.mp first).2.2.trans (le_iff.mp second).2.2⟩

protected theorem le_of_lt (below : left < right) : left ≤ right :=
  le_iff.mpr ⟨(lt_iff.mp below).1, (lt_iff.mp below).2.1, (lt_iff.mp below).2.2.le⟩

/-- Of two numbers one is not above the other. -/
protected theorem le_of_not_lt (number : left.isNaN = false) (numeral : right.isNaN = false)
    (above : ¬ left < right) : right ≤ left :=
  le_iff.mpr ⟨numeral, number, not_lt.mp fun below => above (lt_iff.mpr ⟨number, numeral, below⟩)⟩

/-- What is not above another double is not beyond it. -/
protected theorem not_lt_of_le (below : left ≤ right) : ¬ right < left :=
  fun above => (lt_iff.mp above).2.2.not_ge (le_iff.mp below).2.2

/-- Numbers that are equal are not above one another. -/
theorem le_of_beq (same : (left == right) = true) : left ≤ right :=
  le_iff.mpr ⟨(beq_iff.mp same).1, (beq_iff.mp same).2.1, (beq_iff.mp same).2.2.le⟩

/-- Doubles that are not above one another are equal as numbers. -/
theorem beq_of_le (below : left ≤ right) (above : right ≤ left) : (left == right) = true :=
  beq_iff.mpr ⟨(le_iff.mp below).1, (le_iff.mp below).2.1,
    (le_iff.mp below).2.2.antisymm (le_iff.mp above).2.2⟩

/-- Numbers are equal both ways. -/
theorem beq_symm (same : (left == right) = true) : (right == left) = true :=
  beq_iff.mpr ⟨(beq_iff.mp same).2.1, (beq_iff.mp same).1, (beq_iff.mp same).2.2.symm⟩

/-- Numbers that are equal to the same number are equal. -/
theorem beq_trans (first : (left == middle) = true) (second : (middle == right) = true) :
    (left == right) = true :=
  beq_of_le (Decimal.le_trans (le_of_beq first) (le_of_beq second))
    (Decimal.le_trans (le_of_beq (beq_symm second)) (le_of_beq (beq_symm first)))

/-- A number is equal to itself. -/
theorem beq_refl {value : Float} (number : value.isNaN = false) : (value == value) = true :=
  beq_iff.mpr ⟨number, number, rfl⟩

end LaserCut.Decimal
