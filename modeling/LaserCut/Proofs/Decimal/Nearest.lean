/-
# The doubles around a rational

A magnitude stands for every rational that rounds to it: those up to halfway to
its neighbours, and the two ends as well if its mantissa is even.  The spacing
above a magnitude is one unit of its exponent; below a power of two it is half of
that.  So these intervals do not overlap, a rational rounds to one magnitude
only, and no other magnitude is nearer to it.

The exponent is not bounded from above here.  What a rational rounds to is
infinite as a double if its exponent is too large.
-/

import Mathlib
import LaserCut.Decimal.Shortest
import LaserCut.Proofs.Decimal.Double

namespace LaserCut.Decimal

/-- The number that a mantissa and an exponent stand for. -/
def amount (mantissa : Nat) (exponent : Int) : ℚ :=
  mantissa * 2 ^ exponent

@[simp] theorem amount_zero (exponent : Int) : amount 0 exponent = 0 := by
  simp [amount]

/-- A mantissa has its leading bit in place unless the exponent is the least one. -/
structure IsAligned (mantissa : Nat) (exponent : Int) : Prop where
  small : mantissa < 2 * leadingBit
  least : -1074 ≤ exponent
  leading : leadingBit ≤ mantissa ∨ exponent = -1074

/-- The parts of a finite double are aligned. -/
theorem IsCanonical.isAligned {mantissa : Nat} {exponent : Int}
    (canonical : IsCanonical mantissa exponent) : IsAligned mantissa exponent :=
  ⟨canonical.small, canonical.least, canonical.leading⟩

/-- How far the next magnitude below is away, in halves of the last place. -/
def gapBelow (mantissa : Nat) (exponent : Int) : Nat :=
  if mantissa = leadingBit ∧ exponent ≠ -1074 then 1 else 2

/-- There is room below every magnitude. -/
theorem gapBelow_pos (mantissa : Nat) (exponent : Int) : 0 < gapBelow mantissa exponent := by
  unfold gapBelow
  split_ifs <;> decide

/-- The next magnitude below is at most one unit of the last place away. -/
theorem gapBelow_le_two (mantissa : Nat) (exponent : Int) : gapBelow mantissa exponent ≤ 2 := by
  unfold gapBelow
  split_ifs <;> decide

/-- A rational rounds to a magnitude. -/
structure RoundsTo (exact : ℚ) (mantissa : Nat) (exponent : Int) : Prop where
  aligned : IsAligned mantissa exponent
  low : amount mantissa exponent - gapBelow mantissa exponent * 2 ^ (exponent - 2) ≤ exact
  high : exact ≤ amount mantissa exponent + 2 ^ (exponent - 1)
  even : exact = amount mantissa exponent - gapBelow mantissa exponent * 2 ^ (exponent - 2) ∨
    exact = amount mantissa exponent + 2 ^ (exponent - 1) → mantissa % 2 = 0

/-- A power of two by a power that is larger by a natural number. -/
theorem two_zpow_add_natCast (exponent : Int) (count : Nat) :
    (2 : ℚ) ^ (exponent + count) = (2 ^ count : Nat) * 2 ^ exponent := by
  rw [zpow_add₀ two_ne_zero, zpow_natCast, mul_comm]
  norm_cast

/-- A magnitude with a larger exponent has a longer mantissa at a smaller one. -/
theorem amount_shifted (mantissa : Nat) (exponent : Int) (count : Nat) :
    amount mantissa (exponent + count) = amount (mantissa * 2 ^ count) exponent := by
  simp only [amount, two_zpow_add_natCast]
  push_cast
  ring

/-- A magnitude counts the least positive double. -/
theorem amount_eq_units {mantissa : Nat} {exponent : Int} (least : -1074 ≤ exponent) :
    amount mantissa exponent = unitsOf mantissa exponent * 2 ^ (-1074 : Int) := by
  obtain ⟨count, rfl⟩ := Int.le.dest least
  have length : (-1074 + (count : Int) + 1074).toNat = count := by omega
  rw [amount_shifted, unitsOf, length, amount]

/-- Magnitudes are not negative. -/
theorem amount_nonneg (mantissa : Nat) (exponent : Int) : 0 ≤ amount mantissa exponent := by
  unfold amount
  positivity

/-- At one exponent magnitudes are ordered as their mantissas. -/
theorem amount_lt_amount_iff {mantissa other : Nat} {exponent : Int} :
    amount mantissa exponent < amount other exponent ↔ mantissa < other := by
  rw [amount, amount, mul_lt_mul_iff_left₀ (by positivity), Nat.cast_lt]

namespace IsAligned

variable {mantissa other : Nat} {exponent power : Int}

/-- Of two magnitudes the one with the higher exponent is larger. -/
theorem amount_lt_of_exponent_lt (aligned : IsAligned mantissa exponent)
    (above : IsAligned other power) (lower : exponent < power) :
    amount mantissa exponent < amount other power := by
  obtain ⟨count, rfl⟩ := Int.le.dest lower.le
  have leading : leadingBit ≤ other := above.leading.resolve_right (by have := aligned.least; omega)
  have twice : 2 ≤ 2 ^ count := Nat.le_self_pow (by omega) 2
  rw [amount_shifted, amount_lt_amount_iff]
  calc mantissa < leadingBit * 2 := by have := aligned.small; omega
    _ ≤ other * 2 ^ count := Nat.mul_le_mul leading twice

/-- The next magnitude above is one unit of the exponent away. -/
theorem add_le_amount (aligned : IsAligned mantissa exponent) (other_aligned : IsAligned other power)
    (less : amount mantissa exponent < amount other power) :
    amount mantissa exponent + 2 ^ exponent ≤ amount other power := by
  have order : exponent ≤ power := by
    by_contra lower
    exact (other_aligned.amount_lt_of_exponent_lt aligned (not_le.mp lower)).not_gt less
  obtain ⟨count, rfl⟩ := Int.le.dest order
  rw [amount_shifted, amount_lt_amount_iff] at less
  rw [amount_shifted, amount, amount, ← add_one_mul, mul_le_mul_iff_left₀ (by positivity)]
  exact_mod_cast less

/-- The next magnitude below is as far away as the gap says. -/
theorem amount_le_sub (aligned : IsAligned mantissa exponent) (other_aligned : IsAligned other power)
    (less : amount other power < amount mantissa exponent) :
    amount other power ≤
      amount mantissa exponent - gapBelow mantissa exponent * 2 ^ (exponent - 1) := by
  have half : (2 : ℚ) ^ exponent = 2 * 2 ^ (exponent - 1) := by
    rw [zpow_sub_one₀ two_ne_zero]
    ring
  rcases lt_or_ge power exponent with lower | order
  · -- the unit of the smaller exponent divides the gap
    obtain ⟨count, shifted⟩ := Int.le.dest (Int.le_sub_one_of_lt lower)
    have leading : leadingBit ≤ mantissa :=
      aligned.leading.resolve_right (by have := other_aligned.least; omega)
    have small := other_aligned.small
    have positive : 0 < 2 ^ count := Nat.two_pow_pos count
    have gap : other + gapBelow mantissa exponent * 2 ^ count ≤ mantissa * (2 * 2 ^ count) := by
      unfold gapBelow
      split_ifs with least
      · rw [least.1]
        nlinarith
      · have above : leadingBit + 1 ≤ mantissa := by
          have : -1074 < exponent := lt_of_le_of_lt other_aligned.least lower
          omega
        nlinarith
    have gap' : (other : ℚ) + gapBelow mantissa exponent * 2 ^ count ≤
        mantissa * (2 * 2 ^ count) := by
      exact_mod_cast gap
    have unit : (0 : ℚ) < 2 ^ power := by positivity
    rw [amount, amount, half, ← shifted, two_zpow_add_natCast]
    push_cast
    nlinarith
  · have above := add_le_amount other_aligned aligned less
    have wider : (2 : ℚ) ^ exponent ≤ 2 ^ power := zpow_le_zpow_right₀ one_le_two order
    have gap : (gapBelow mantissa exponent : ℚ) ≤ 2 := by
      exact_mod_cast gapBelow_le_two mantissa exponent
    have unit : (0 : ℚ) < 2 ^ (exponent - 1) := by positivity
    nlinarith

/-- Of a magnitude there is one mantissa and exponent only. -/
theorem eq_of_amount_eq (aligned : IsAligned mantissa exponent)
    (other_aligned : IsAligned other power) (same : amount mantissa exponent = amount other power) :
    mantissa = other ∧ exponent = power := by
  rcases lt_trichotomy exponent power with lower | rfl | lower
  · exact absurd same (aligned.amount_lt_of_exponent_lt other_aligned lower).ne
  · have unit : (2 : ℚ) ^ exponent ≠ 0 := by positivity
    exact ⟨Nat.cast_injective (mul_right_cancel₀ unit same), rfl⟩
  · exact absurd same (other_aligned.amount_lt_of_exponent_lt aligned lower).ne'

end IsAligned

namespace RoundsTo

variable {exact : ℚ} {mantissa other : Nat} {exponent power : Int}

/-- The distance to the end of an interval is half of the distance to the next
magnitude. -/
theorem half_unit (exponent : Int) :
    (2 : ℚ) ^ exponent = 2 * 2 ^ (exponent - 1) ∧
      (2 : ℚ) ^ (exponent - 1) = 2 * 2 ^ (exponent - 2) := by
  constructor
  · rw [zpow_sub_one₀ two_ne_zero]
    ring
  · rw [show exponent - 1 = exponent - 2 + 1 by ring, zpow_add_one₀ two_ne_zero, mul_comm]

/-- No magnitude is nearer to a rational than the one that it rounds to. -/
theorem nearest (rounds : RoundsTo exact mantissa exponent) (aligned : IsAligned other power) :
    |amount mantissa exponent - exact| ≤ |amount other power - exact| := by
  obtain ⟨whole, quarter⟩ := half_unit exponent
  have low := rounds.low
  have high := rounds.high
  rcases lt_trichotomy (amount mantissa exponent) (amount other power) with above | same | below
  · have gap := rounds.aligned.add_le_amount aligned above
    rw [abs_of_nonneg (by linarith : (0 : ℚ) ≤ amount other power - exact), abs_le]
    constructor <;> linarith
  · rw [same]
  · have gap := rounds.aligned.amount_le_sub aligned below
    rw [abs_of_nonpos (by nlinarith : amount other power - exact ≤ 0), abs_le]
    constructor <;> nlinarith

/-- A larger magnitude is not what the same rational rounds to. -/
theorem not_amount_lt (rounds : RoundsTo exact mantissa exponent) (again : RoundsTo exact other power) :
    ¬ amount mantissa exponent < amount other power := by
  intro less
  obtain ⟨whole, quarter⟩ := half_unit exponent
  obtain ⟨whole', quarter'⟩ := half_unit power
  have above := rounds.aligned.add_le_amount again.aligned less
  have below := again.aligned.amount_le_sub rounds.aligned less
  have high := rounds.high
  have low := again.low
  -- the rational is halfway between the two, so both mantissas are even
  have upper : exact = amount mantissa exponent + 2 ^ (exponent - 1) := by nlinarith
  have lower : exact = amount other power - gapBelow other power * 2 ^ (power - 2) := by nlinarith
  have even := rounds.even (.inr upper)
  have even' := again.even (.inl lower)
  have next : amount (mantissa + 1) exponent = amount other power := by
    rw [amount, Nat.cast_add_one, add_one_mul, ← amount]
    nlinarith
  have small := rounds.aligned.small
  have successor : IsAligned (mantissa + 1) exponent := by
    refine ⟨?_, rounds.aligned.least, rounds.aligned.leading.imp (fun h => by omega) id⟩
    simp only [leadingBit] at small ⊢
    omega
  obtain ⟨odd, -⟩ := successor.eq_of_amount_eq again.aligned next
  omega

/-- A rational rounds to one magnitude only. -/
theorem unique (rounds : RoundsTo exact mantissa exponent) (again : RoundsTo exact other power) :
    mantissa = other ∧ exponent = power := by
  have same := le_antisymm (not_lt.mp (again.not_amount_lt rounds)) (not_lt.mp (rounds.not_amount_lt again))
  exact rounds.aligned.eq_of_amount_eq again.aligned same

/-- A magnitude rounds to itself. -/
theorem of_amount (aligned : IsAligned mantissa exponent) :
    RoundsTo (amount mantissa exponent) mantissa exponent := by
  have above : (0 : ℚ) < 2 ^ (exponent - 1) := by positivity
  have below : (0 : ℚ) < gapBelow mantissa exponent * 2 ^ (exponent - 2) := by
    have positive := gapBelow_pos mantissa exponent
    positivity
  exact ⟨aligned, by linarith, by linarith, fun ends => by rcases ends with h | h <;> linarith⟩

end RoundsTo

end LaserCut.Decimal
