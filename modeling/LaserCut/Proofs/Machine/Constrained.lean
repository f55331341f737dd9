/-
# Constrained values

What the machine is given for a feedrate or an intensity lies between two limits,
whatever is requested.  It is kept when it is requested again, larger requests are
given no less, and a warning tells when it is not the whole part of the request.

Counted in least positive doubles, truncation is division by the count of one, and
that counts infinities as well: theirs is a multiple of it.  So the order of the
requests is kept by truncation, and then by the limits.
-/

import Mathlib
import LaserCut.Proofs.Decimal.Order
import LaserCut.Proofs.Machine.Limits

namespace LaserCut

namespace Decimal

/-- The count of one divides a magnitude into whole numbers. -/
theorem unitsOf_div_unitsPerOne {mantissa : Nat} {exponent : Int} (least : -1074 ≤ exponent) :
    unitsOf mantissa exponent / unitsPerOne =
      mantissa * (powerOfTwo exponent).1 / (powerOfTwo exponent).2 := by
  unfold unitsOf unitsPerOne
  cases exponent with
  | ofNat power =>
      have scale : 2 ^ (Int.ofNat power + 1074).toNat = 2 ^ power * 2 ^ 1074 := by
        rw [← pow_add]
        rfl
      rw [scale, ← mul_assoc, Nat.mul_div_cancel _ (by positivity)]
      simp [powerOfTwo]
  | negSucc k =>
      obtain ⟨rest, total⟩ : ∃ rest, 1074 = rest + (k + 1) := ⟨1074 - (k + 1), by omega⟩
      have left : (Int.negSucc k + 1074).toNat = rest := by omega
      have scale : (2 : Nat) ^ 1074 = 2 ^ (k + 1) * 2 ^ rest := by rw [total, pow_add, mul_comm]
      rw [left, scale, Nat.mul_div_mul_right _ _ (by positivity)]
      simp [powerOfTwo]

/-- A sign is kept by division toward zero. -/
theorem signedInt_tdiv (negative : Bool) (magnitude divisor : Nat) :
    (signedInt negative magnitude).tdiv divisor = signedInt negative (magnitude / divisor) := by
  cases negative <;> simp [signedInt, Int.neg_tdiv]

/-- The count of an infinity is that of a whole number. -/
theorem unitsPerOne_dvd_overflowUnits : unitsPerOne ∣ overflowUnits := by
  unfold unitsPerOne overflowUnits
  exact pow_dvd_pow 2 (by decide)

/-- What is not made of a mantissa and an exponent has no fraction to lose. -/
theorem truncate_of_special {value : Float}
    (special : ∀ negative mantissa exponent,
      Binary.ofFloat value ≠ .finite negative mantissa exponent) :
    truncate value = value := by
  refine truncate_of_not_finite (Bool.eq_false_iff.mpr fun finite => ?_)
  obtain ⟨negative, mantissa, exponent, parts⟩ := (isFinite_iff value).mp finite
  exact special negative mantissa exponent parts

/-- Truncation divides counts by the count of one, toward zero. -/
theorem units_truncate_eq_tdiv (value : Float) :
    (Binary.ofFloat (truncate value)).units =
      (Binary.ofFloat value).units.tdiv unitsPerOne * unitsPerOne := by
  cases parts : Binary.ofFloat value with
  | finite negative mantissa exponent =>
      rw [units_truncate parts, Binary.units, signedInt_tdiv,
        unitsOf_div_unitsPerOne (isCanonical_of_ofFloat parts).least]
      rfl
  | nan =>
      have kept : truncate value = value := truncate_of_special (by simp [parts])
      rw [kept, parts, Binary.units, Int.zero_tdiv, zero_mul]
  | infinite negative =>
      have kept : truncate value = value := truncate_of_special (by simp [parts])
      rw [kept, parts, Binary.units, signedInt_tdiv, ← signedInt_mul,
        Nat.div_mul_cancel unitsPerOne_dvd_overflowUnits]

/-- Truncation keeps the order of doubles. -/
theorem truncate_le_truncate {left right : Float} (below : left ≤ right) :
    truncate left ≤ truncate right := by
  obtain ⟨number, numeral, counts⟩ := le_iff.mp below
  have unit : (0 : Int) < unitsPerOne := mod_cast unitsPerOne_pos
  rw [le_iff, isNaN_truncate, isNaN_truncate, units_truncate_eq_tdiv, units_truncate_eq_tdiv]
  exact ⟨number, numeral, mul_le_mul_of_nonneg_right (Int.tdiv_le_tdiv unit counts) unit.le⟩

end Decimal

open Decimal

/-- What it is to limit values: the result lies between the limits and is kept if it is
limited again, it grows with the value, and a warning is due just if it is not equal to
the whole part of the value, to which a NaN never is. -/
structure IsLimiter (least greatest : Float) (limit : Float → Float) (warns : Float → Prop) :
    Prop where
  least_le : ∀ value, least ≤ limit value
  le_greatest : ∀ value, limit value ≤ greatest
  idempotent : ∀ value, limit (limit value) = limit value
  monotone : ∀ {left right}, left ≤ right → limit left ≤ limit right
  warns_iff : ∀ value, warns value ↔ (limit value == truncate value) = false

namespace Quantity

variable (quantity : Quantity) {value left right : Float}

/-- The limits are in order. -/
theorem least_le_greatest : quantity.least ≤ quantity.greatest := by
  cases quantity <;> decide +kernel

/-- A NaN is given the least value. -/
theorem constrain_of_isNaN (nan : value.isNaN = true) : quantity.constrain value = quantity.least := by
  simp only [constrain, limit?, isNaN_truncate, nan, Bool.true_or, if_true, Option.getD_some]

/-- A number is moved to the limit that it is beyond, and loses its fraction otherwise. -/
theorem constrain_of_number (number : value.isNaN = false) :
    quantity.constrain value =
      if truncate value < quantity.least then quantity.least
      else if quantity.greatest < truncate value then quantity.greatest
      else truncate value := by
  simp only [constrain, limit?, isNaN_truncate, number, Bool.false_or, gt_iff_lt,
    decide_eq_true_eq]
  split_ifs <;> rfl

/-- What the machine is given lies between the limits. -/
theorem constrain_bounds (value : Float) :
    quantity.least ≤ quantity.constrain value ∧ quantity.constrain value ≤ quantity.greatest := by
  obtain ⟨least, greatest⟩ := isNaN_limits quantity
  have order := quantity.least_le_greatest
  cases number : value.isNaN with
  | true =>
      rw [constrain_of_isNaN quantity number]
      exact ⟨Decimal.le_refl least, order⟩
  | false =>
      have numeral : (truncate value).isNaN = false := (isNaN_truncate value).trans number
      rw [constrain_of_number quantity number]
      split_ifs with below above
      · exact ⟨Decimal.le_refl least, order⟩
      · exact ⟨order, Decimal.le_refl greatest⟩
      · exact ⟨Decimal.le_of_not_lt numeral least below,
          Decimal.le_of_not_lt greatest numeral above⟩

/-- Counted, a number is cut off at the limits. -/
theorem units_constrain (number : value.isNaN = false) :
    (Binary.ofFloat (quantity.constrain value)).units =
      max (Binary.ofFloat quantity.least).units
        (min (Binary.ofFloat quantity.greatest).units (Binary.ofFloat (truncate value)).units) := by
  obtain ⟨least, greatest⟩ := isNaN_limits quantity
  have order := (le_iff.mp quantity.least_le_greatest).2.2
  have numeral : (truncate value).isNaN = false := (isNaN_truncate value).trans number
  rw [constrain_of_number quantity number]
  split_ifs with below above
  · have counted := (lt_iff.mp below).2.2.le
    rw [min_eq_right (counted.trans order), max_eq_left counted]
  · rw [min_eq_left (lt_iff.mp above).2.2.le, max_eq_right order]
  · rw [lt_iff_units numeral least, not_lt] at below
    rw [lt_iff_units greatest numeral, not_lt] at above
    rw [min_eq_right above, max_eq_right below]

/-- Larger requests are given no less. -/
theorem constrain_le_constrain (ordered : left ≤ right) :
    quantity.constrain left ≤ quantity.constrain right := by
  obtain ⟨number, numeral, -⟩ := le_iff.mp ordered
  refine le_iff.mpr ⟨(le_iff.mp (quantity.constrain_bounds left).1).2.1,
    (le_iff.mp (quantity.constrain_bounds right).1).2.1, ?_⟩
  rw [units_constrain quantity number, units_constrain quantity numeral]
  have whole := (le_iff.mp (truncate_le_truncate ordered)).2.2
  exact max_le_max_left _ (min_le_min_left _ whole)

/-- A warning is given just if what the machine is given is not equal to the whole part of
the request. -/
theorem warning?_isSome_iff (value : Float) :
    (quantity.warning? value).isSome ↔ (quantity.constrain value == truncate value) = false := by
  have numeral := isNaN_truncate value
  rw [Bool.eq_false_iff, ne_eq]
  cases number : value.isNaN with
  | true =>
      have apart : ¬ (quantity.constrain value == truncate value) = true := by
        intro same
        have known := (beq_iff.mp same).2.1
        rw [numeral, number] at known
        cases known
      simp only [warning?, limit?, numeral, number, Bool.true_or, if_true, Option.map_some,
        Option.isSome_some, apart, Bool.false_eq_true, not_false_eq_true]
  | false =>
      rw [constrain_of_number quantity number]
      simp only [warning?, limit?, numeral, number, Bool.false_or, gt_iff_lt, decide_eq_true_eq,
        Option.isSome_map]
      split_ifs with below above
      · exact iff_of_true rfl fun same => Decimal.not_lt_of_le (le_of_beq same) below
      · exact iff_of_true rfl fun same => Decimal.not_lt_of_le (le_of_beq (beq_symm same)) above
      · exact iff_of_false Bool.false_ne_true
          (not_not_intro (Decimal.beq_refl (numeral.trans number)))

/-- What the machine is given is limited. -/
theorem isLimiter : IsLimiter quantity.least quantity.greatest quantity.constrain
    fun value => (quantity.warning? value).isSome where
  least_le value := (quantity.constrain_bounds value).1
  le_greatest value := (quantity.constrain_bounds value).2
  idempotent := constrain_constrain quantity
  monotone ordered := constrain_le_constrain quantity ordered
  warns_iff := warning?_isSome_iff quantity

end Quantity

namespace Machine

/-- The word of a feedrate is read as what the machine is given, and then written in the
same way. -/
theorem exists_read?_feedrate (value : Float) :
    ∃ rate, read? (numberText (Quantity.feedrate.constrain value)) = some rate ∧
      numberText (Quantity.feedrate.constrain rate) =
        numberText (Quantity.feedrate.constrain value) :=
  ⟨_, read?_feedrate value, by rw [Quantity.constrain_constrain]⟩

/-- The word of a power is read as a power of which the intensity is, as a number, what
the machine is given. -/
theorem exists_read?_power (value : Float) :
    ∃ power, read? (digitsOf (powerOfIntensity (Quantity.intensity.constrain value))) = some power ∧
      (intensityOfPower power == Quantity.intensity.constrain value) = true := by
  refine ⟨_, read?_digitsOf _, ?_⟩
  rcases Quantity.constrain_intensity_cases value with zero | ⟨n, small, whole⟩
  · rw [zero]
    decide +kernel
  · rw [whole, powerOfIntensity_ofNat small, intensityOfPower_of_percentage small]
    exact Decimal.beq_refl (isNaN_ofNat (Quantity.lt_two_leadingBit (small.trans (by decide))))

/-- Whatever is requested, also a NaN or an infinity, the machine is given a feedrate and
an intensity within its limits, and what has been written for them is read and written
without a change. -/
theorem limits_and_words :
    IsLimiter 0.1 24000 Quantity.feedrate.constrain
        (fun value => (Quantity.feedrate.warning? value).isSome) ∧
      IsLimiter 0 100 Quantity.intensity.constrain
        (fun value => (Quantity.intensity.warning? value).isSome) ∧
      ∀ value,
        (∃ rate, read? (numberText (Quantity.feedrate.constrain value)) = some rate ∧
          numberText (Quantity.feedrate.constrain rate) =
            numberText (Quantity.feedrate.constrain value)) ∧
        ∃ power,
          read? (digitsOf (powerOfIntensity (Quantity.intensity.constrain value))) = some power ∧
            (intensityOfPower power == Quantity.intensity.constrain value) = true :=
  ⟨Quantity.isLimiter .feedrate, Quantity.isLimiter .intensity,
    fun value => ⟨exists_read?_feedrate value, exists_read?_power value⟩⟩

end Machine

end LaserCut
