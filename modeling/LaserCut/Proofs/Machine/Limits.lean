/-
# Values that the machine takes

The limits are stated here on the exact value of a double: its whole part is
compared with the range as a rational number.  Whatever is requested, a
feedrate becomes the least one or a whole number in the range, and an
intensity a whole percentage.
-/

import Mathlib
import LaserCut.Machine.Limits
import LaserCut.Proofs.Decimal.Exact
import LaserCut.Proofs.Decimal.Finite
import LaserCut.Proofs.Decimal.Reading
import LaserCut.Proofs.Decimal.WholeText

namespace LaserCut

open Decimal

namespace Quantity

/-- The least value that the machine takes, as an exact number. -/
def leastExact : Quantity → ℚ
  | .feedrate => 1 / 10
  | .intensity => 0

/-- The greatest value that the machine takes, as an exact number. -/
def greatestExact : Quantity → ℚ
  | .feedrate => 24000
  | .intensity => 100

/-- Whether the whole part of a value lies outside of the range.  A NaN and the
infinities have no whole part inside of it. -/
def IsOutOfRange (quantity : Quantity) (value : Float) : Prop :=
  match Binary.ofFloat value with
  | .nan => True
  | .infinite _ => True
  | .finite negative mantissa exponent =>
      (wholePart negative mantissa exponent : ℚ) < quantity.leastExact ∨
        quantity.greatestExact < wholePart negative mantissa exponent

/-- The limits are numbers. -/
theorem isNaN_limits (quantity : Quantity) :
    quantity.least.isNaN = false ∧ quantity.greatest.isNaN = false := by
  cases quantity <;> decide

/-- The least feedrate counts less than the number one. -/
theorem units_least_feedrate :
    0 < (Binary.ofFloat Quantity.feedrate.least).units ∧
      (Binary.ofFloat Quantity.feedrate.least).units < unitsPerOne := by
  decide +kernel

/-- A whole number counts less than the least value just when it is less. -/
theorem units_lt_least_iff (quantity : Quantity) (n : Int) :
    n * unitsPerOne < (Binary.ofFloat quantity.least).units ↔ (n : ℚ) < quantity.leastExact := by
  have unit := unitsPerOne_pos
  cases quantity with
  | feedrate =>
      obtain ⟨positive, small⟩ := units_least_feedrate
      have whole : (n : ℚ) < 1 / 10 ↔ n ≤ 0 := by
        constructor
        · intro less
          have less_one : (n : ℚ) < 1 := less.trans (by norm_num)
          have : n < 1 := by exact_mod_cast less_one
          omega
        · intro nonpos
          have nonpos_rat : (n : ℚ) ≤ 0 := by exact_mod_cast nonpos
          linarith
      rw [leastExact, whole]
      constructor
      · intro less
        by_contra above
        have : 1 * (unitsPerOne : Int) ≤ n * unitsPerOne :=
          mul_le_mul_of_nonneg_right (by omega) (by omega)
        omega
      · intro nonpos
        have : n * (unitsPerOne : Int) ≤ 0 := mul_nonpos_of_nonpos_of_nonneg nonpos (by omega)
        omega
  | intensity =>
      have zero : (Binary.ofFloat Quantity.intensity.least).units = 0 := by decide
      rw [zero, leastExact]
      constructor
      · intro less
        exact_mod_cast neg_of_mul_neg_left less (by omega)
      · intro less
        have negative : n < 0 := by exact_mod_cast less
        exact mul_neg_of_neg_of_pos negative (by omega)

/-- Whole numbers up to the greatest feedrate are doubles. -/
theorem lt_two_leadingBit {n : Nat} (small : n ≤ 24000) : n < 2 * leadingBit := by
  simp only [leadingBit]
  omega

/-- The greatest value is a whole number. -/
theorem greatest_eq (quantity : Quantity) : ∃ n : Nat, n ≤ 24000 ∧
    quantity.greatest = Float.ofNat n ∧ quantity.greatestExact = n := by
  cases quantity with
  | feedrate => exact ⟨24000, le_rfl, by decide, by norm_num [greatestExact]⟩
  | intensity => exact ⟨100, by decide, by decide, by norm_num [greatestExact]⟩

/-- A whole number counts more than the greatest value just when it is
greater. -/
theorem greatest_lt_units_iff (quantity : Quantity) (n : Int) :
    (Binary.ofFloat quantity.greatest).units < n * unitsPerOne ↔
      quantity.greatestExact < (n : ℚ) := by
  obtain ⟨greatest, small, value, exact_value⟩ := greatest_eq quantity
  have unit := unitsPerOne_pos
  have fits := lt_two_leadingBit small
  rw [value, exact_value, units_ofNat fits]
  constructor
  · intro less
    exact_mod_cast lt_of_mul_lt_mul_right less (by omega)
  · intro less
    have less_int : (greatest : Int) < n := by exact_mod_cast less
    exact mul_lt_mul_of_pos_right less_int (by omega)

/-- The limit that takes the place of a finite value depends on its whole part. -/
theorem limit?_of_finite (quantity : Quantity) {value : Float} {negative : Bool} {mantissa : Nat}
    {exponent : Int} (parts : Binary.ofFloat value = .finite negative mantissa exponent) :
    quantity.limit? (truncate value) =
      if (wholePart negative mantissa exponent : ℚ) < quantity.leastExact then
        some quantity.least
      else if quantity.greatestExact < wholePart negative mantissa exponent then
        some quantity.greatest
      else none := by
  obtain ⟨leastNumber, greatestNumber⟩ := isNaN_limits quantity
  have number : (truncate value).isNaN = false := by
    rw [isNaN_truncate, ← Bool.not_eq_true, isNaN_iff, parts]
    exact nofun
  have below : truncate value < quantity.least ↔
      (wholePart negative mantissa exponent : ℚ) < quantity.leastExact := by
    rw [lt_iff_units number leastNumber, units_truncate parts, units_lt_least_iff]
  have above : quantity.greatest < truncate value ↔
      quantity.greatestExact < wholePart negative mantissa exponent := by
    rw [lt_iff_units greatestNumber number, units_truncate parts, greatest_lt_units_iff]
  simp only [limit?, number, Bool.false_or, gt_iff_lt, decide_eq_true_eq, below, above]

/-- The limits lie between zero and infinity. -/
theorem units_limits (quantity : Quantity) :
    0 ≤ (Binary.ofFloat quantity.least).units ∧
      (Binary.ofFloat quantity.least).units ≤ overflowUnits ∧
      (Binary.ofFloat quantity.greatest).units < overflowUnits := by
  cases quantity <;> decide +kernel

/-- An infinity is replaced by the limit on its side. -/
theorem limit?_of_infinite (quantity : Quantity) {value : Float} {negative : Bool}
    (parts : Binary.ofFloat value = .infinite negative) :
    quantity.limit? value = some (if negative then quantity.least else quantity.greatest) := by
  obtain ⟨leastNumber, greatestNumber⟩ := isNaN_limits quantity
  obtain ⟨least_nonneg, least_le, greatest_lt⟩ := units_limits quantity
  have overflow := overflowUnits_pos
  have number : value.isNaN = false := by
    rw [← Bool.not_eq_true, isNaN_iff, parts]
    exact nofun
  have below := lt_iff_units number leastNumber
  have above := lt_iff_units greatestNumber number
  rw [parts, Binary.units] at below above
  cases negative with
  | false =>
      have not_below : ¬ value < quantity.least := by
        rw [below, signedInt, if_neg (by decide)]
        omega
      have is_above : quantity.greatest < value := by
        rw [above, signedInt, if_neg (by decide)]
        omega
      simp only [limit?, number, not_below, is_above, decide_false, Bool.or_false,
        Bool.false_eq_true, if_false, if_true]
  | true =>
      have is_below : value < quantity.least := by
        rw [below, signedInt, if_pos rfl]
        omega
      simp only [limit?, is_below, decide_true, Bool.or_true, if_true]

/-- A value without a whole part is replaced: positive infinity by the greatest
value, and everything else by the least one. -/
theorem limit?_of_not_finite (quantity : Quantity) {value : Float}
    (special : value.isFinite = false) :
    quantity.limit? (truncate value) =
      some (if Binary.ofFloat value = .infinite false then quantity.greatest
        else quantity.least) := by
  rw [truncate_of_not_finite special]
  cases parts : Binary.ofFloat value with
  | nan =>
      have nan : value.isNaN = true := (isNaN_iff value).mpr parts
      simp only [limit?, nan, Bool.true_or, if_true, reduceCtorEq, if_false]
  | infinite negative =>
      rw [limit?_of_infinite quantity parts]
      cases negative <;> simp
  | finite =>
      have finite := (isFinite_iff value).mpr ⟨_, _, _, parts⟩
      rw [special] at finite
      cases finite

/-- A warning is given just for a value that is out of range. -/
theorem limit?_isSome_iff (quantity : Quantity) (value : Float) :
    (quantity.limit? (truncate value)).isSome ↔ quantity.IsOutOfRange value := by
  cases parts : Binary.ofFloat value with
  | finite negative mantissa exponent =>
      rw [limit?_of_finite quantity parts, IsOutOfRange, parts]
      split_ifs <;> simp [*]
  | _ =>
      have special : value.isFinite = false := by
        rw [← Bool.not_eq_true, isFinite_iff, parts]
        simp
      rw [IsOutOfRange, parts]
      simp [limit?_of_not_finite quantity special]

instance (quantity : Quantity) (value : Float) : Decidable (quantity.IsOutOfRange value) :=
  decidable_of_iff _ (quantity.limit?_isSome_iff value)

/-- The warnings about a value: one if it is out of range, with its whole part
and what the machine is given instead. -/
theorem warning?_toList (quantity : Quantity) (value : Float) :
    (quantity.warning? value).toList =
      if quantity.IsOutOfRange value then
        [⟨quantity, truncate value, quantity.constrain value⟩]
      else [] := by
  have outside := quantity.limit?_isSome_iff value
  rw [warning?, constrain]
  cases limit : quantity.limit? (truncate value) with
  | none =>
      rw [limit] at outside
      rw [if_neg (mt outside.mpr (by simp))]
      rfl
  | some bound =>
      rw [limit] at outside
      rw [if_pos (outside.mp rfl)]
      rfl

/-- What the machine is given in place of a value: a limit, or the whole part,
which then lies between the limits. -/
theorem constrain_cases (quantity : Quantity) (value : Float) :
    quantity.constrain value = quantity.least ∨ quantity.constrain value = quantity.greatest ∨
      ∃ negative n, quantity.constrain value = signedWhole negative n ∧
        quantity.leastExact ≤ signedInt negative n ∧
        (signedInt negative n : ℚ) ≤ quantity.greatestExact := by
  simp only [constrain]
  by_cases special : value.isFinite = false
  · rw [limit?_of_not_finite quantity special]
    split_ifs
    · exact .inr (.inl rfl)
    · exact .inl rfl
  · obtain ⟨negative, mantissa, exponent, parts⟩ := (isFinite_iff value).mp (by simpa using special)
    rw [limit?_of_finite quantity parts]
    split_ifs with below above
    · exact .inl rfl
    · exact .inr (.inl rfl)
    · obtain ⟨greatest, small, -, exact_value⟩ := greatest_eq quantity
      rw [not_lt] at below above
      have least_nonneg : (0 : ℚ) ≤ quantity.leastExact := by
        cases quantity <;> norm_num [leastExact]
      have upper : wholePart negative mantissa exponent ≤ greatest := by
        rw [exact_value] at above
        exact_mod_cast above
      have lower : 0 ≤ wholePart negative mantissa exponent := by
        exact_mod_cast least_nonneg.trans below
      have fits : (wholePart negative mantissa exponent).natAbs < leadingBit := by
        simp only [leadingBit]
        omega
      refine .inr (.inr ⟨negative, _, truncate_eq_signedWhole parts fits, ?_, ?_⟩)
      · rwa [signedInt_natAbs_wholePart]
      · rwa [signedInt_natAbs_wholePart]

/-- A feedrate that the machine is given is the least one or a whole number. -/
theorem constrain_feedrate_cases (value : Float) :
    Quantity.feedrate.constrain value = 0.1 ∨
      ∃ n, 1 ≤ n ∧ n ≤ 24000 ∧ Quantity.feedrate.constrain value = Float.ofNat n := by
  rcases constrain_cases .feedrate value with least | greatest | ⟨negative, n, whole, above, below⟩
  · exact .inl least
  · have limit : Quantity.feedrate.greatest = Float.ofNat 24000 := by decide
    exact .inr ⟨24000, by decide, le_rfl, greatest.trans limit⟩
  · cases negative with
    | true =>
        simp only [signedInt, if_true, leastExact] at above
        have nonneg : (0 : ℚ) ≤ n := Nat.cast_nonneg n
        push_cast at above
        linarith
    | false =>
        simp only [signedInt, leastExact, greatestExact, Bool.false_eq_true, if_false,
          Int.cast_natCast] at above below
        refine .inr ⟨n, ?_, by exact_mod_cast below, whole⟩
        by_contra small
        obtain rfl : n = 0 := by omega
        norm_num at above

/-- An intensity that the machine is given is a whole percentage; zero may have
either sign. -/
theorem constrain_intensity_cases (value : Float) :
    Quantity.intensity.constrain value = -Float.ofNat 0 ∨
      ∃ n, n ≤ 100 ∧ Quantity.intensity.constrain value = Float.ofNat n := by
  rcases constrain_cases .intensity value with least | greatest | ⟨negative, n, whole, above, below⟩
  · have limit : Quantity.intensity.least = Float.ofNat 0 := by decide
    exact .inr ⟨0, by decide, least.trans limit⟩
  · have limit : Quantity.intensity.greatest = Float.ofNat 100 := by decide
    exact .inr ⟨100, le_rfl, greatest.trans limit⟩
  · cases negative with
    | true =>
        simp only [signedInt, if_true, leastExact] at above
        have nonpos : (n : ℚ) ≤ 0 := by
          push_cast at above
          linarith
        obtain rfl : n = 0 := by exact_mod_cast Nat.le_zero.mp (by exact_mod_cast nonpos)
        exact .inl whole
    | false =>
        simp only [signedInt, greatestExact, Bool.false_eq_true, if_false, Int.cast_natCast] at below
        exact .inr ⟨n, by exact_mod_cast below, whole⟩

/-- A whole number within the limits is what the machine is given. -/
theorem constrain_ofNat (quantity : Quantity) {n : Nat} (least : quantity.leastExact ≤ n)
    (greatest : n ≤ quantity.greatestExact) :
    quantity.constrain (Float.ofNat n) = Float.ofNat n := by
  obtain ⟨limit, small, -, exact_value⟩ := greatest_eq quantity
  have fits : n < leadingBit := by
    rw [exact_value] at greatest
    have : n ≤ limit := by exact_mod_cast greatest
    simp only [leadingBit]
    omega
  obtain ⟨mantissa, exponent, parts, whole⟩ := parts_ofNat (by omega : n < 2 * leadingBit)
  have part : (wholePart false mantissa exponent).natAbs = n := by rw [whole, Int.natAbs_natCast]
  have kept := truncate_eq_signedWhole parts (by rwa [part])
  have inside := limit?_of_finite quantity parts
  rw [whole, Int.cast_natCast, if_neg (not_lt.mpr least), if_neg (not_lt.mpr greatest)] at inside
  rw [constrain, inside, kept, part]
  rfl

/-- What the machine is given is kept if it is requested again. -/
theorem constrain_constrain (quantity : Quantity) (value : Float) :
    quantity.constrain (quantity.constrain value) = quantity.constrain value := by
  cases quantity with
  | feedrate =>
      rcases constrain_feedrate_cases value with least | ⟨n, positive, small, whole⟩
      · rw [least]
        decide +kernel
      · have one : (1 : ℚ) ≤ n := by exact_mod_cast positive
        rw [whole]
        exact constrain_ofNat .feedrate (by rw [leastExact]; linarith)
          (by rw [greatestExact]; exact_mod_cast small)
  | intensity =>
      rcases constrain_intensity_cases value with zero | ⟨n, small, whole⟩
      · rw [zero]
        decide +kernel
      · rw [whole]
        exact constrain_ofNat .intensity (by rw [leastExact]; exact Nat.cast_nonneg n)
          (by rw [greatestExact]; exact_mod_cast small)

end Quantity

namespace Machine

/-- The word of a constrained feedrate denotes a number that the machine
takes. -/
theorem denotes_feedrate (value : Float) :
    ∃ rate : ℚ, Denotes (numberText (Quantity.feedrate.constrain value)) rate ∧
      1 / 10 ≤ rate ∧ rate ≤ 24000 := by
  rcases Quantity.constrain_feedrate_cases value with least | ⟨n, positive, small, whole⟩
  · have text : numberText 0.1 = "0.1".toList := by decide
    have known := @Denotes.pointed ['0'] ['1'] (by decide) (by simp [AllDigits])
      (by simp [AllDigits])
    have tenth : valueOf (['0'] ++ ['1']) = 1 := by decide
    rw [tenth] at known
    rw [least, text]
    exact ⟨_, known, by norm_num, by norm_num⟩
  · rw [whole, numberText_ofNat (Quantity.lt_two_leadingBit small)]
    have one : (1 : ℚ) ≤ n := by exact_mod_cast positive
    exact ⟨n, denotes_digitsOf n, by linarith, by exact_mod_cast small⟩

/-- The word of a constrained feedrate is read as that feedrate. -/
theorem read?_feedrate (value : Float) :
    read? (numberText (Quantity.feedrate.constrain value)) =
      some (Quantity.feedrate.constrain value) := by
  rcases Quantity.constrain_feedrate_cases value with least | ⟨n, -, small, whole⟩
  · rw [least]
    decide
  · rw [whole, numberText_ofNat (Quantity.lt_two_leadingBit small), read?_digitsOf]

/-- A whole percentage is bounded already. -/
theorem powerOfIntensity_ofNat {n : Nat} (small : n ≤ 100) :
    powerOfIntensity (Float.ofNat n) = (n * 255 + 50) / 100 := by
  have fits := Quantity.lt_two_leadingBit (small.trans (by decide))
  have zero : (0.0 : Float) = Float.ofNat 0 := by decide
  have hundred : (100.0 : Float) = Float.ofNat 100 := by decide
  have not_below : ¬ Float.ofNat n < Float.ofNat 0 := by
    rw [ofNat_lt_ofNat_iff fits (by decide)]
    omega
  have not_above : ¬ Float.ofNat 100 < Float.ofNat n := by
    rw [ofNat_lt_ofNat_iff (by decide) fits]
    omega
  simp only [powerOfIntensity, zero, hundred, if_neg not_below, gt_iff_lt, if_neg not_above,
    floorCount_ofNat fits]

/-- A constrained intensity gives a power that the machine takes. -/
theorem powerOfIntensity_constrain_le (value : Float) :
    powerOfIntensity (Quantity.intensity.constrain value) ≤ 255 := by
  rcases Quantity.constrain_intensity_cases value with zero | ⟨n, small, whole⟩
  · rw [zero]
    decide
  · rw [whole, powerOfIntensity_ofNat small]
    omega

/-- The power of what the machine is given is that of a whole percentage. -/
theorem exists_percentage (value : Float) :
    ∃ n ≤ 100, powerOfIntensity (Quantity.intensity.constrain value) = (n * 255 + 50) / 100 := by
  rcases Quantity.constrain_intensity_cases value with zero | ⟨n, small, whole⟩
  · rw [zero]
    exact ⟨0, by decide, by decide⟩
  · rw [whole]
    exact ⟨n, small, powerOfIntensity_ofNat small⟩

/-- The power of a whole percentage, divided by a number near to the ratio of powers to
percentages, is less than a quarter of a percent away. -/
theorem percentage_near_power {n : Nat} {ratio : ℚ} (small : n ≤ 100)
    (low : 51 / 20 - 1 / 1000 ≤ ratio) (high : ratio ≤ 51 / 20 + 1 / 1000) :
    |(n : ℚ) - ((n * 255 + 50) / 100 : Nat) / ratio| < 1 / 4 := by
  have least : 255 * n ≤ 100 * ((n * 255 + 50) / 100) + 49 := by omega
  have most : 100 * ((n * 255 + 50) / 100) ≤ 255 * n + 50 := by omega
  generalize (n * 255 + 50) / 100 = power at least most ⊢
  have least' : (255 * n : ℚ) ≤ 100 * power + 49 := by exact_mod_cast least
  have most' : (100 * power : ℚ) ≤ 255 * n + 50 := by exact_mod_cast most
  have bound : (n : ℚ) ≤ 100 := by exact_mod_cast small
  have nonneg : (0 : ℚ) ≤ n := Nat.cast_nonneg n
  have lower := mul_le_mul_of_nonneg_left low nonneg
  have upper := mul_le_mul_of_nonneg_left high nonneg
  have positive : 0 < ratio := by linarith
  rw [abs_lt, neg_lt_sub_iff_lt_add, sub_lt_comm, div_lt_iff₀ positive, lt_div_iff₀ positive]
  constructor <;> linarith

/-- The ratio of powers to percentages is rounded to a double. -/
theorem exists_parts_ratio : ∃ mantissa exponent,
    Binary.ofFloat 2.55 = .finite false mantissa exponent ∧
      51 / 20 - 1 / 1000 ≤ amount mantissa exponent ∧
      amount mantissa exponent ≤ 51 / 20 + 1 / 1000 := by
  refine ⟨5742089524897382, -51, by decide, ?_, ?_⟩ <;> norm_num [amount]

/-- Every whole percentage is found again in its power. -/
theorem intensityOfPower_of_percentage {n : Nat} (small : n ≤ 100) :
    intensityOfPower (Float.ofNat ((n * 255 + 50) / 100)) = Float.ofNat n := by
  obtain ⟨divisor, scale, ratio, low, high⟩ := exists_parts_ratio
  have near := percentage_near_power small low high
  have fits : (n * 255 + 50) / 100 < 2 * leadingBit := Quantity.lt_two_leadingBit (by omega)
  obtain ⟨mantissa, exponent, parts, power⟩ := exists_parts_ofNat fits
  have nonzero : divisor ≠ 0 := by
    rintro rfl
    rw [amount_zero] at low
    norm_num at low
  have rounded := isRounded_div parts ratio nonzero
  rw [power] at rounded
  -- whole numbers are doubles, so the quotient is rounded to nothing farther away
  have next : n + 1 < 2 * leadingBit := Quantity.lt_two_leadingBit (by omega)
  obtain ⟨above, above_exponent, above_parts, successor⟩ := exists_parts_ofNat next
  obtain ⟨quotient, shift, rounds, known⟩ := rounded.exists_parts_of_le
    (isCanonical_of_ofFloat above_parts) (by
      rw [successor]
      push_cast
      linarith [abs_lt.mp near])
  obtain ⟨whole, whole_exponent, aligned, percentage⟩ :=
    isAligned_whole (Quantity.lt_two_leadingBit (small.trans (by decide)))
  have nearest := rounds.nearest aligned
  rw [percentage] at nearest
  refine roundAway_of_near known (by simp only [leadingBit]; omega) ?_
  calc |amount quotient shift - n|
      ≤ |amount quotient shift - ((n * 255 + 50) / 100 : Nat) / amount divisor scale| +
          |((n * 255 + 50) / 100 : Nat) / amount divisor scale - n| := abs_sub_le _ _ _
    _ < 1 / 4 + 1 / 4 := add_lt_add (nearest.trans_lt near) (by rwa [abs_sub_comm])
    _ = 1 / 2 := by norm_num

/-- The intensity that is found in a power is given to the machine as that power
again, and is not limited. -/
theorem powerOfIntensity_intensityOfPower (value : Float) :
    let power := powerOfIntensity (Quantity.intensity.constrain value)
    powerOfIntensity (Quantity.intensity.constrain (intensityOfPower (Float.ofNat power))) =
      power := by
  obtain ⟨n, small, percentage⟩ := exists_percentage value
  have kept : Quantity.intensity.constrain (Float.ofNat n) = Float.ofNat n :=
    Quantity.constrain_ofNat .intensity (by rw [Quantity.leastExact]; exact Nat.cast_nonneg n)
      (by rw [Quantity.greatestExact]; exact_mod_cast small)
  simp only [percentage, intensityOfPower_of_percentage small, kept, powerOfIntensity_ofNat small]

end Machine

end LaserCut
