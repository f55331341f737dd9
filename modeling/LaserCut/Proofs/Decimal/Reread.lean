/-
# Coordinates that are written and read

The double that is read from a coordinate is the one nearest to what was written,
and the coordinate itself is one of the doubles that it was chosen from.  So it is
no farther from what was written than half a unit of the last place, and it is
written in the same way.  It cannot stand exactly half a unit above: the
coordinate would stand as far below, and two doubles do not differ by one unit of
a decimal place unless that is a whole one, which is then a double itself.
-/

import Mathlib
import LaserCut.Proofs.Decimal.Exact
import LaserCut.Proofs.Decimal.Places
import LaserCut.Proofs.Decimal.Scientific

namespace LaserCut.Decimal

variable {mantissa places : Nat} {exponent : Int}

/-- The units that are written are at most half a unit away. -/
theorem placeUnits_bounds (mantissa places : Nat) (exponent : Int) :
    (placeUnits mantissa exponent places : ℚ) ≤ amount mantissa exponent * 10 ^ places + 1 / 2 ∧
      amount mantissa exponent * 10 ^ places + 1 / 2 < placeUnits mantissa exponent places + 1 := by
  have nonneg : 0 ≤ amount mantissa exponent * 10 ^ places + 1 / 2 := by
    have := amount_nonneg mantissa exponent
    positivity
  exact ⟨Nat.floor_le nonneg, Nat.lt_floor_add_one _⟩

/-- Two doubles do not differ by one unit of a decimal place. -/
theorem amount_sub_ne {other : Nat} {power : Int} (aligned : IsAligned mantissa exponent)
    (other_aligned : IsAligned other power) (positive : 0 < places) :
    (amount mantissa exponent - amount other power) * 10 ^ places ≠ 1 := by
  intro one
  obtain ⟨scale, known⟩ : ∃ scale : Nat, (-1074 : Int) = -scale := ⟨1074, rfl⟩
  rw [amount_eq_units aligned.least, amount_eq_units other_aligned.least, ← sub_mul, known, zpow_neg,
    mul_right_comm, mul_inv_eq_one₀ (by positivity), zpow_natCast] at one
  have whole : ((unitsOf mantissa exponent : Int) - unitsOf other power) * 10 ^ places =
      2 ^ scale := by
    exact_mod_cast one
  -- the left side is a multiple of five
  obtain ⟨count, rfl⟩ := Nat.exists_eq_succ_of_ne_zero positive.ne'
  have five : (5 : Int) ∣ 2 ^ scale := by
    rw [← whole, pow_succ]
    exact Dvd.dvd.mul_left (Dvd.dvd.mul_left (by decide) _) _
  have prime : Prime (5 : Int) := by norm_num
  exact absurd (prime.dvd_of_dvd_pow five) (by decide)

/-- A double that is not whole is small. -/
theorem IsAligned.amount_lt_of_not_whole {n : Nat} (aligned : IsAligned mantissa exponent)
    (half : amount mantissa exponent + 1 / 2 = n) : n < 2 * leadingBit := by
  have fraction : exponent ≤ -1 := by
    by_contra whole
    obtain ⟨count, rfl⟩ := Int.eq_ofNat_of_zero_le (by omega : 0 ≤ exponent)
    rw [amount, zpow_natCast] at half
    have twice : 2 * (mantissa * 2 ^ count) + 1 = 2 * n := by
      have : (2 * (mantissa * 2 ^ count) + 1 : ℚ) = 2 * n := by linarith
      exact_mod_cast this
    omega
  have unit : (2 : ℚ) ^ exponent ≤ 1 / 2 := by
    calc (2 : ℚ) ^ exponent ≤ 2 ^ (-1 : Int) := zpow_le_zpow_right₀ one_le_two fraction
      _ = 1 / 2 := by norm_num
  have small : (mantissa : ℚ) < (2 * leadingBit : Nat) := by exact_mod_cast aligned.small
  have bound : amount mantissa exponent ≤ mantissa * (1 / 2) :=
    mul_le_mul_of_nonneg_left unit (Nat.cast_nonneg _)
  have wide : (1 : ℚ) ≤ (2 * leadingBit : Nat) := by norm_num [leadingBit]
  have total : (n : ℚ) < (2 * leadingBit : Nat) := by linarith
  exact_mod_cast total

/-- What is read from a written double is written in the same way. -/
theorem placeUnits_of_roundsTo {read : Nat} {power : Int} (aligned : IsAligned mantissa exponent)
    (rounds : RoundsTo (placeUnits mantissa exponent places / 10 ^ places) read power) :
    placeUnits read power places = placeUnits mantissa exponent places := by
  have scale : (0 : ℚ) < 10 ^ places := by positivity
  obtain ⟨low, high⟩ := placeUnits_bounds mantissa places exponent
  have near := rounds.nearest aligned
  obtain ⟨units, known⟩ : ∃ units, placeUnits mantissa exponent places = units := ⟨_, rfl⟩
  rw [known] at low high near rounds ⊢
  have written : (units / 10 ^ places : ℚ) * 10 ^ places = units := div_mul_cancel₀ _ scale.ne'
  have scaled (value : ℚ) : |value - units / 10 ^ places| * 10 ^ places =
      |value * 10 ^ places - units| := by
    rw [← abs_of_pos scale, ← abs_mul, sub_mul, abs_of_pos scale, written]
  have close : |amount read power * 10 ^ places - units| ≤
      |amount mantissa exponent * 10 ^ places - units| := by
    rw [← scaled, ← scaled]
    exact mul_le_mul_of_nonneg_right near scale.le
  have half : |amount mantissa exponent * 10 ^ places - units| ≤ 1 / 2 :=
    abs_le.mpr ⟨by linarith, by linarith⟩
  obtain ⟨lower, upper⟩ := abs_le.mp (close.trans half)
  have nonneg : 0 ≤ amount read power * 10 ^ places + 1 / 2 := by
    have := amount_nonneg read power
    positivity
  rw [placeUnits, Nat.floor_eq_iff nonneg]
  refine ⟨by linarith, lt_of_le_of_ne (by linarith) fun tie => ?_⟩
  -- what was read is half a unit above, so the coordinate was half a unit below
  have above : amount read power * 10 ^ places - units = 1 / 2 := by linarith
  have below : amount mantissa exponent * 10 ^ places - units = -(1 / 2) := by
    rw [above, abs_of_pos one_half_pos] at close
    rcases abs_choice (amount mantissa exponent * 10 ^ places - units) with h | h <;>
      rw [h] at close <;> linarith
  rcases places.eq_zero_or_pos with rfl | positive
  · rw [pow_zero, mul_one] at above below
    have small := aligned.amount_lt_of_not_whole (by linarith : _ = (units : ℚ))
    obtain ⟨_, _, whole, equal⟩ := isAligned_whole small
    have exactly := rounds.nearest whole
    rw [equal, pow_zero, div_one, sub_self, abs_zero] at exactly
    have := abs_nonpos_iff.mp exactly
    linarith
  · exact amount_sub_ne rounds.aligned aligned positive (by rw [sub_mul]; linarith)

/-- What is read from a written double is not too large. -/
theorem IsCanonical.isCanonical_of_roundsTo {read : Nat} {power : Int}
    (canonical : IsCanonical mantissa exponent)
    (rounds : RoundsTo (placeUnits mantissa exponent places / 10 ^ places) read power) :
    IsCanonical read power := by
  refine ⟨rounds.aligned.small, rounds.aligned.least, ?_, rounds.aligned.leading⟩
  by_contra large
  have beyond : 972 ≤ power := by omega
  have first : IsAligned leadingBit 972 := ⟨by decide, by decide, .inl le_rfl⟩
  have leading : leadingBit ≤ read := rounds.aligned.leading.resolve_right (by omega)
  have above : amount leadingBit 972 ≤ amount read power :=
    mul_le_mul (by exact_mod_cast leading) (zpow_le_zpow_right₀ one_le_two beyond) (by positivity)
      (by positivity)
  have below := first.amount_le_sub canonical.isAligned
    (canonical.isAligned.amount_lt_of_exponent_lt first (by have := canonical.greatest; omega))
  have gap : (1 : ℚ) ≤ gapBelow leadingBit 972 * 2 ^ (972 - 1 : Int) := by
    rw [show gapBelow leadingBit 972 = 1 from rfl, Nat.cast_one, one_mul]
    exact one_le_zpow₀ one_le_two (by decide)
  -- both are written as the same number, so they differ by less than one
  have same := placeUnits_of_roundsTo canonical.isAligned rounds
  have high := (placeUnits_bounds read places power).2
  have low := (placeUnits_bounds mantissa places exponent).1
  rw [same] at high
  have scale : (1 : ℚ) ≤ 10 ^ places := one_le_pow₀ (by norm_num)
  nlinarith

/-- Reading a number with fixed places gives the nearest double. -/
theorem magnitude?_withPlaces (scaled places : Nat) :
    magnitude? (withPlaces scaled places) = some (nearest scaled (-places)) := by
  rcases Nat.eq_zero_or_pos places with rfl | positive
  · have whole := magnitude?_of_allDigits (digitsOf_ne_nil scaled) (allDigits_digitsOf scaled)
    rw [valueOf_digitsOf] at whole
    simpa [withPlaces] using whole
  · rw [withPlaces_eq positive, magnitude?_pointed (digitsOf_ne_nil _) (allDigits_digitsOf _)
      (allDigits_paddedFraction scaled places), valueOf_append, length_paddedFraction positive,
      valueOf_digitsOf, valueOf_paddedFraction, Nat.div_add_mod']

/-- What is read from the magnitude of a coordinate is finite and written in the
same way. -/
theorem nearest_placeUnits (canonical : IsCanonical mantissa exponent) (places : Nat) :
    ∃ read power,
      Binary.ofFloat (nearest (placeUnits mantissa exponent places) (-places)) =
        .finite false read power ∧
      placeUnits read power places = placeUnits mantissa exponent places := by
  obtain ⟨read, power, rounds, parts⟩ :=
    isRounded_nearest (placeUnits mantissa exponent places) (-places)
  rw [zpow_neg, zpow_natCast, ← div_eq_mul_inv] at rounds
  rw [if_pos (canonical.isCanonical_of_roundsTo rounds).greatest] at parts
  exact ⟨read, power, parts, placeUnits_of_roundsTo canonical.isAligned rounds⟩

/-- A coordinate is a number with fixed places, with a minus in front if it is
below zero. -/
theorem fixed_eq {value : Float} {negative : Bool}
    (parts : Binary.ofFloat value = .finite negative mantissa exponent)
    (few : places ≤ mostPlaces) :
    fixed value places =
      if negative ∧ mantissa ≠ 0 then '-' :: withPlaces (placeUnits mantissa exponent places) places
      else withPlaces (placeUnits mantissa exponent places) places := by
  simp only [fixed, parts, fixedMagnitude_eq (isCanonical_of_ofFloat parts) few]

/-- The sign of a coordinate is read with the nearest double. -/
theorem read?_fixed_nearest {value : Float} {negative : Bool}
    (parts : Binary.ofFloat value = .finite negative mantissa exponent)
    (few : places ≤ mostPlaces) :
    read? (fixed value places) =
      some (signed (negative && mantissa != 0)
        (nearest (placeUnits mantissa exponent places) (-places))) := by
  have denotes := denotes_withPlaces (placeUnits mantissa exponent places) places
  have read := magnitude?_withPlaces (placeUnits mantissa exponent places) places
  rw [fixed_eq parts few]
  split_ifs with below
  · have minus : (negative && mantissa != 0) = true := by simpa using below
    rw [read?_minus_of_denotes denotes, read, minus]
    rfl
  · have plus : (negative && mantissa != 0) = false := by
      simpa [Bool.and_eq_false_iff] using below
    rw [read?_of_denotes denotes, read, plus]
    rfl

end LaserCut.Decimal
