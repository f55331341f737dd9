/-
# The exact value of a double

A finite double stands for a rational, its mantissa times a power of two with its
sign.  Whether a double is a whole number, and which one, is decided on that value,
and so is the whole number that it is rounded to.
-/

import Mathlib
import LaserCut.Decimal.Rounding
import LaserCut.Proofs.Decimal.Nearest
import LaserCut.Proofs.Decimal.Whole

namespace LaserCut.Decimal

/-- The rational that a double stands for; only finite ones stand for any. -/
def rational? (value : Float) : Option ℚ :=
  match Binary.ofFloat value with
  | .finite negative mantissa exponent =>
      some (if negative then -amount mantissa exponent else amount mantissa exponent)
  | _ => none

/-- A magnitude is a whole number if its denominator divides its mantissa. -/
theorem amount_eq_natCast_iff {mantissa n : Nat} {exponent : Int} :
    amount mantissa exponent = n ↔
      mantissa % (powerOfTwo exponent).2 = 0 ∧
        mantissa / (powerOfTwo exponent).2 * (powerOfTwo exponent).1 = n := by
  cases exponent with
  | ofNat power =>
      have scaled : amount mantissa (.ofNat power) = (mantissa * 2 ^ power : Nat) := by
        simp [amount]
      rw [scaled, Nat.cast_inj]
      simp [powerOfTwo, Nat.mod_one]
  | negSucc k =>
      have unit : ((2 ^ (k + 1) : Nat) : ℚ) ≠ 0 := by positivity
      have scaled : amount mantissa (.negSucc k) = mantissa / (2 ^ (k + 1) : Nat) := by
        rw [amount, zpow_negSucc, div_eq_mul_inv]
        push_cast
        rfl
      rw [scaled, div_eq_iff unit, ← Nat.cast_mul, Nat.cast_inj]
      simp only [powerOfTwo, Nat.pow_eq, Int.toNat_negSucc, pow_zero, mul_one, Int.neg_negSucc,
        Int.toNat_natCast]
      have positive : 0 < 2 ^ (k + 1) := by positivity
      constructor
      · rintro rfl
        exact ⟨Nat.mul_mod_left _ _, Nat.mul_div_cancel _ positive⟩
      · rintro ⟨divides, rfl⟩
        exact (Nat.div_mul_cancel (Nat.dvd_of_mod_eq_zero divides)).symm

/-- A double denotes an integer if that is its value. -/
theorem whole?_eq_some_iff {value : Float} {n : Int} :
    whole? value = some n ↔ rational? value = some (n : ℚ) := by
  unfold whole? rational?
  cases parts : Binary.ofFloat value with
  | nan => simp
  | infinite negative => simp
  | finite negative mantissa exponent =>
      dsimp only
      by_cases divides : mantissa % (powerOfTwo exponent).2 = 0
      · have known := (@amount_eq_natCast_iff mantissa _ exponent).mpr ⟨divides, rfl⟩
        rw [if_pos divides, known, Option.some_inj, Option.some_inj, ← Int.cast_natCast]
        cases negative with
        | false => exact Int.cast_inj.symm
        | true =>
            rw [if_pos rfl, if_pos rfl, ← Int.cast_neg]
            exact Int.cast_inj.symm
      · rw [if_neg divides, Option.some_inj]
        refine iff_of_false nofun fun same => divides ?_
        have magnitude : amount mantissa exponent = (n.natAbs : ℚ) := by
          have nonneg := amount_nonneg mantissa exponent
          rw [Nat.cast_natAbs, Int.cast_abs, ← same]
          cases negative <;> simp [abs_of_nonneg nonneg]
        exact (amount_eq_natCast_iff.mp magnitude).1

/-- A small whole number stands for itself. -/
theorem exists_parts_ofNat {n : Nat} (small : n < 2 * leadingBit) :
    ∃ mantissa exponent, Binary.ofFloat (Float.ofNat n) = .finite false mantissa exponent ∧
      amount mantissa exponent = n := by
  rcases n.eq_zero_or_pos with rfl | positive
  · exact ⟨0, -1074, by decide, by rw [amount_zero, Nat.cast_zero]⟩
  · refine ⟨_, _, ofFloat_ofNat positive small, ?_⟩
    rw [← amount_shifted, neg_add_cancel, amount, zpow_zero, mul_one]

/-- A small whole number is a double. -/
theorem isAligned_whole {n : Nat} (small : n < 2 * leadingBit) :
    ∃ mantissa exponent, IsAligned mantissa exponent ∧ amount mantissa exponent = n := by
  obtain ⟨mantissa, exponent, parts, value⟩ := exists_parts_ofNat small
  exact ⟨mantissa, exponent, (isCanonical_of_ofFloat parts).isAligned, value⟩

/-- What is less than a half away from a small whole number is rounded to it. -/
theorem roundAway_of_near {value : Float} {mantissa n : Nat} {exponent : Int}
    (parts : Binary.ofFloat value = .finite false mantissa exponent) (small : n < leadingBit)
    (near : |amount mantissa exponent - n| < 1 / 2) : roundAway value = Float.ofNat n := by
  obtain ⟨below, above⟩ := abs_lt.mp near
  cases exponent with
  | ofNat power =>
      -- what has no fraction has its leading bit, and is too large to be near
      have power_nonneg : (power : Int) ≠ -1074 := by omega
      have leading : leadingBit ≤ mantissa :=
        (isCanonical_of_ofFloat parts).leading.resolve_right power_nonneg
      have scaled : mantissa ≤ mantissa * 2 ^ power := Nat.le_mul_of_pos_right _ (by positivity)
      have apart : ((n + 1 : Nat) : ℚ) ≤ (mantissa * 2 ^ power : Nat) := by
        exact_mod_cast (by omega : n + 1 ≤ mantissa * 2 ^ power)
      have value : amount mantissa (.ofNat power) = (mantissa * 2 ^ power : Nat) := by
        simp [amount]
      rw [value] at above
      push_cast at above apart
      linarith
  | negSucc k =>
      have unit : (0 : ℚ) < 2 ^ (k + 1) := by positivity
      have scaled : amount mantissa (.negSucc k) * 2 ^ (k + 1) = mantissa := by
        rw [amount, zpow_negSucc, inv_mul_cancel_right₀ unit.ne']
      have low : (n * 2 ^ (k + 2) : ℚ) ≤ 2 * mantissa + 2 ^ (k + 1) := by
        rw [← scaled, pow_succ (2 : ℚ) (k + 1)]
        nlinarith
      have high : (2 * mantissa + 2 ^ (k + 1) : ℚ) < (n + 1) * 2 ^ (k + 2) := by
        rw [← scaled, pow_succ (2 : ℚ) (k + 1)]
        nlinarith
      have whole : (2 * mantissa + 2 ^ (k + 1)) / 2 ^ (k + 2) = n :=
        Nat.div_eq_of_lt_le (by exact_mod_cast low) (by exact_mod_cast high)
      simp only [roundAway, parts, Nat.pow_eq, whole]
      rfl

end LaserCut.Decimal
