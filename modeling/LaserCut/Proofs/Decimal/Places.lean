/-
# Fixed places, exactly

The probe of thirty further places tells a tie from every other value that a
double can have, and only a tie is raised by a unit of the last place.  So what is
written for a double is its exact value to the nearest such unit, a tie away from
zero.
-/

import Mathlib
import LaserCut.Proofs.Decimal.Nearest
import LaserCut.Proofs.Decimal.Reading

namespace LaserCut.Decimal

/-- The nearest number of units of the last place, a tie away from zero. -/
def placeUnits (mantissa : Nat) (exponent : Int) (places : Nat) : Nat :=
  ⌊amount mantissa exponent * 10 ^ places + 1 / 2⌋₊

/-- A magnitude is a quotient of whole numbers. -/
theorem amount_eq_div (mantissa : Nat) (exponent : Int) :
    amount mantissa exponent =
      (mantissa * (powerOfTwo exponent).1 : Nat) / (powerOfTwo exponent).2 := by
  rw [amount, powerOfTwo]
  rcases le_total 0 exponent with up | down
  · obtain ⟨count, rfl⟩ := Int.eq_ofNat_of_zero_le up
    simp
  · obtain ⟨count, rfl⟩ := Int.exists_eq_neg_ofNat down
    simp [div_eq_mul_inv]

/-- Half a unit is added before the rest is dropped. -/
theorem floor_add_half (numerator : Nat) {denominator : Nat} (positive : 0 < denominator) :
    ⌊(numerator / denominator : ℚ) + 1 / 2⌋₊ =
      if 2 * (numerator % denominator) < denominator then numerator / denominator
      else numerator / denominator + 1 := by
  have divisor : (0 : ℚ) < denominator := by exact_mod_cast positive
  have parts : (denominator * (numerator / denominator : Nat) +
      (numerator % denominator : Nat) : ℚ) = numerator := by
    exact_mod_cast Nat.div_add_mod numerator denominator
  have small := Nat.mod_lt numerator positive
  have small' : ((numerator % denominator : Nat) : ℚ) < denominator := by exact_mod_cast small
  have nonneg : (0 : ℚ) ≤ (numerator % denominator : Nat) := Nat.cast_nonneg _
  have scaled : (numerator / denominator : ℚ) * denominator = numerator :=
    div_mul_cancel₀ _ divisor.ne'
  rw [Nat.floor_eq_iff (by positivity)]
  generalize numerator / denominator = quotient at parts ⊢
  generalize numerator % denominator = remainder at parts small small' nonneg ⊢
  split_ifs with low
  · have low' : (2 * remainder : ℚ) < denominator := by exact_mod_cast low
    constructor <;> nlinarith
  · have high' : (denominator : ℚ) ≤ 2 * remainder := by exact_mod_cast not_lt.mp low
    push_cast
    constructor <;> nlinarith

/-- Division to the even neighbour differs from that in a tie only. -/
theorem divideToEven_of_not_tie {numerator denominator : Nat} (positive : 0 < denominator)
    (apart : 2 * (numerator % denominator) ≠ denominator) :
    divideToEven numerator denominator = ⌊(numerator / denominator : ℚ) + 1 / 2⌋₊ := by
  rw [floor_add_half numerator positive, divideToEven]
  simp only [apart, false_and, or_false]

/-- What is divided to the even neighbour is at most half a unit away. -/
theorem divideToEven_bounds {numerator denominator : Nat} (positive : 0 < denominator) :
    2 * numerator ≤ 2 * denominator * divideToEven numerator denominator + denominator ∧
      2 * denominator * divideToEven numerator denominator ≤ 2 * numerator + denominator := by
  have parts := Nat.div_add_mod numerator denominator
  have small := Nat.mod_lt numerator positive
  rw [divideToEven]
  generalize numerator / denominator = quotient at parts ⊢
  generalize numerator % denominator = remainder at parts small ⊢
  subst parts
  split_ifs with low
  · have below : 2 * remainder ≤ denominator := by omega
    rw [mul_assoc]
    omega
  · have above : denominator ≤ 2 * remainder := by omega
    rw [mul_add_one, mul_assoc]
    omega

/-- In a tie the probe is the quotient with a five and nothing but zeros behind it. -/
theorem probe_of_tie {numerator denominator : Nat} (half : Nat) (positive : 0 < denominator)
    (tie : 2 * (numerator % denominator) = denominator) :
    divideToEven (numerator * (2 * half)) denominator =
      2 * half * (numerator / denominator) + half := by
  have exactly : numerator * (2 * half) =
      denominator * (2 * half * (numerator / denominator) + half) := by
    have parts := Nat.div_add_mod numerator denominator
    generalize numerator / denominator = quotient at parts ⊢
    generalize numerator % denominator = remainder at parts tie
    calc numerator * (2 * half)
        = denominator * quotient * (2 * half) + 2 * remainder * half := by rw [← parts]; ring
      _ = denominator * (2 * half * quotient + half) := by rw [tie]; ring
  rw [exactly, divideToEven, Nat.mul_div_cancel_left _ positive, Nat.mul_mod_right]
  simp [positive]

/-- Nothing but a tie shows in the probe like that if the probe is longer than the
denominator, or the value is far below half a unit. -/
theorem tie_of_probe {numerator denominator half : Nat} (positive : 0 < denominator)
    (long : 1 < half) (apart : denominator < 2 * half ∨ 4 * numerator ≤ denominator)
    (probe : divideToEven (numerator * (2 * half)) denominator % (2 * half) = half) :
    2 * (numerator % denominator) = denominator := by
  obtain ⟨upper, lower⟩ := @divideToEven_bounds (numerator * (2 * half)) denominator positive
  have parts := Nat.div_add_mod (divideToEven (numerator * (2 * half)) denominator) (2 * half)
  rw [probe] at parts
  rw [← parts] at upper lower
  generalize divideToEven (numerator * (2 * half)) denominator / (2 * half) = whole at upper lower
  rcases apart with short | far
  · -- twice the value is an odd number of denominators
    have twice : 2 * numerator = 2 * (denominator * whole) + denominator := by
      rcases lt_trichotomy (2 * numerator) (2 * (denominator * whole) + denominator) with h | h | h
      · nlinarith
      · exact h
      · nlinarith
    obtain ⟨rest, rfl⟩ := Nat.exists_eq_add_of_le (by omega : denominator * whole ≤ numerator)
    rw [Nat.mul_add_mod, Nat.mod_eq_of_lt (by omega)]
    omega
  · have least : 2 * denominator * half ≤ 2 * denominator * (2 * half * whole + half) :=
      Nat.mul_le_mul_left _ (Nat.le_add_left ..)
    have most : 4 * numerator * half ≤ denominator * half := Nat.mul_le_mul_right _ far
    have wide : denominator * 2 ≤ denominator * half := Nat.mul_le_mul_left _ long
    nlinarith

/-- The most places for which the probe is known to tell a tie. -/
def mostPlaces : Nat :=
  10

/-- What the probe shows of a tie: a five with nothing but zeros behind it. -/
@[irreducible] def halfProbe : Nat :=
  5 * 10 ^ 29

/-- The probe counts a unit of the last place by two halves. -/
theorem two_mul_halfProbe : 2 * halfProbe = 10 ^ probePlaces := by
  unfold halfProbe
  norm_num [probePlaces]

/-- For a double the probe is longer than the denominator, or the value is far
below half a unit. -/
theorem IsCanonical.probe_apart {mantissa places : Nat} {exponent : Int}
    (canonical : IsCanonical mantissa exponent) (few : places ≤ mostPlaces) :
    (powerOfTwo exponent).2 < 2 * halfProbe ∨
      4 * (mantissa * (powerOfTwo exponent).1 * 10 ^ places) ≤ (powerOfTwo exponent).2 := by
  simp only [powerOfTwo, Nat.pow_eq, two_mul_halfProbe]
  rcases lt_or_ge (-exponent).toNat 100 with short | long
  · left
    calc 2 ^ (-exponent).toNat ≤ 2 ^ 99 := Nat.pow_le_pow_right two_pos (by omega)
      _ < 10 ^ probePlaces := by norm_num [probePlaces]
  · right
    have fraction : exponent.toNat = 0 := by omega
    have places_le : 10 ^ places ≤ 10 ^ 10 := Nat.pow_le_pow_right (by decide) few
    rw [fraction, pow_zero, mul_one]
    calc 4 * (mantissa * 10 ^ places) ≤ 4 * (2 * leadingBit * 10 ^ 10) :=
          Nat.mul_le_mul_left _ (Nat.mul_le_mul canonical.small.le places_le)
      _ ≤ 2 ^ 100 := by norm_num [leadingBit]
      _ ≤ 2 ^ (-exponent).toNat := Nat.pow_le_pow_right two_pos long

/-- A quotient is written to the nearest unit of the last place, a tie away from
zero. -/
theorem incrementLast_of_probe {numerator denominator : Nat} (places : Nat)
    (positive : 0 < denominator)
    (apart : denominator < 2 * halfProbe ∨ 4 * numerator ≤ denominator) :
    (if divideToEven (numerator * (2 * halfProbe)) denominator % (2 * halfProbe) = halfProbe then
        incrementLast (withPlaces
          (divideToEven (numerator * (2 * halfProbe)) denominator / (2 * halfProbe)) places)
      else withPlaces (divideToEven numerator denominator) places) =
      withPlaces ⌊(numerator / denominator : ℚ) + 1 / 2⌋₊ places := by
  have long : 1 < halfProbe := by
    unfold halfProbe
    norm_num
  by_cases tie : 2 * (numerator % denominator) = denominator
  · have probe := probe_of_tie halfProbe positive tie
    have mark : (2 * halfProbe * (numerator / denominator) + halfProbe) % (2 * halfProbe) =
        halfProbe := by
      rw [Nat.mul_add_mod, Nat.mod_eq_of_lt (by omega)]
    have front : (2 * halfProbe * (numerator / denominator) + halfProbe) / (2 * halfProbe) =
        numerator / denominator := by
      rw [Nat.mul_add_div (by omega : 0 < 2 * halfProbe),
        Nat.div_eq_of_lt (by omega : halfProbe < 2 * halfProbe), add_zero]
    have above : ¬ 2 * (numerator % denominator) < denominator := by omega
    rw [probe, if_pos mark, front, incrementLast_withPlaces, floor_add_half numerator positive,
      if_neg above]
  · rw [if_neg (mt (tie_of_probe positive long apart) tie), divideToEven_of_not_tie positive tie]

/-- A double is written as its exact value to the nearest unit of the last place, a
tie away from zero. -/
theorem fixedMagnitude_eq {mantissa places : Nat} {exponent : Int}
    (canonical : IsCanonical mantissa exponent) (few : places ≤ mostPlaces) :
    fixedMagnitude mantissa exponent places =
      withPlaces (placeUnits mantissa exponent places) places := by
  have units : placeUnits mantissa exponent places =
      ⌊((mantissa * (powerOfTwo exponent).1 * 10 ^ places : Nat) /
        (powerOfTwo exponent).2 : ℚ) + 1 / 2⌋₊ := by
    rw [placeUnits, amount_eq_div, div_mul_eq_mul_div, Nat.cast_mul _ (10 ^ places), Nat.cast_pow,
      Nat.cast_ofNat]
  have probe : scaledToEven mantissa exponent (places + probePlaces) =
      divideToEven (mantissa * (powerOfTwo exponent).1 * 10 ^ places * (2 * halfProbe))
        (powerOfTwo exponent).2 := by
    rw [two_mul_halfProbe, mul_assoc _ (10 ^ places), ← pow_add]
    rfl
  have mark : 5 * Nat.pow 10 (probePlaces - 1) = halfProbe := by
    unfold halfProbe
    rfl
  rw [fixedMagnitude, probe, mark, Nat.pow_eq, ← two_mul_halfProbe, units]
  exact incrementLast_of_probe places (Nat.two_pow_pos _) (canonical.probe_apart few)

end LaserCut.Decimal
