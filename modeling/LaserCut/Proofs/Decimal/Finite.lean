/-
# Results that stay finite

What is rounded is finite if some double is not below it, so a result is known to
be finite from a bound on its exact value.  Only a product can leave the range of
doubles where numbers of documents are scaled, and there the result is looked at.
-/

import Mathlib
import LaserCut.Proofs.Decimal.Scientific

namespace LaserCut.Decimal

open Float.Model (UnpackedFloat)

/-- A double is infinite as core tells it just when it denotes an infinity. -/
theorem isInf_iff (value : Float) :
    value.isInf ↔ ∃ negative, Binary.ofFloat value = .infinite negative := by
  rw [ofFloat_eq, Float.isInf, Float.Model.isInf]
  cases value.toModel.unpack <;> simp [UnpackedFloat.isInf, Binary.ofUnpacked]

/-- A sign keeps a double finite. -/
theorem isFinite_signed {value : Float} (finite : value.isFinite) (negative : Bool) :
    (signed negative value).isFinite := by
  cases negative with
  | false => exact finite
  | true =>
      obtain ⟨minus, mantissa, exponent, parts⟩ := (isFinite_iff value).mp finite
      rw [signed, if_pos rfl, isFinite_iff, ofFloat_neg, parts]
      exact ⟨!minus, mantissa, exponent, rfl⟩

namespace IsRounded

variable {value : Float} {negative : Bool} {exact : ℚ} {mantissa : Nat} {exponent : Int}

/-- What is rounded is finite or infinite. -/
theorem isFinite_of_not_isInf (rounded : IsRounded value negative exact)
    (bounded : value.isInf = false) : value.isFinite := by
  obtain ⟨mantissa, exponent, -, parts⟩ := rounded
  split_ifs at parts with fits
  · exact (isFinite_iff value).mpr ⟨_, _, _, parts⟩
  · rw [(isInf_iff value).mpr ⟨_, parts⟩] at bounded
    cases bounded

/-- What is rounded from a number that is not above a double has its parts. -/
theorem exists_parts_of_le (rounded : IsRounded value negative exact)
    (canonical : IsCanonical mantissa exponent) (below : exact ≤ amount mantissa exponent) :
    ∃ result power, RoundsTo exact result power ∧
      Binary.ofFloat value = .finite negative result power := by
  obtain ⟨result, power, rounds, parts⟩ := rounded
  have fits : power ≤ 971 := by
    by_contra large
    have order := canonical.greatest
    have above := canonical.isAligned.amount_lt_of_exponent_lt rounds.aligned (by omega)
    have nearest := rounds.nearest canonical.isAligned
    rw [abs_of_nonneg (by linarith), abs_of_nonneg (by linarith)] at nearest
    linarith
  exact ⟨result, power, rounds, parts.trans (if_pos fits)⟩

/-- What is rounded from a number that is not above a double is finite. -/
theorem isFinite_of_le (rounded : IsRounded value negative exact)
    (canonical : IsCanonical mantissa exponent) (below : exact ≤ amount mantissa exponent) :
    value.isFinite := by
  obtain ⟨result, power, -, parts⟩ := rounded.exists_parts_of_le canonical below
  exact (isFinite_iff value).mpr ⟨_, _, _, parts⟩

end IsRounded

/-- A whole number of 64 bits is a finite double. -/
theorem isFinite_ofNat {n : Nat} (fits : n ≤ 2 ^ 64) : (Float.ofNat n).isFinite := by
  have rounded : IsRounded (Float.ofNat n) false (n * 10 ^ (0 : Int)) := isRounded_nearest n 0
  have canonical : IsCanonical leadingBit 12 := ⟨by decide, by decide, by decide, .inl le_rfl⟩
  refine rounded.isFinite_of_le canonical ?_
  have bound : (n : ℚ) ≤ 2 ^ 64 := by exact_mod_cast fits
  rw [zpow_zero, mul_one, amount, leadingBit]
  norm_num at bound ⊢
  exact bound

/-- The powers of ten up to the greatest one that a double can be. -/
theorem exists_parts_nearest_one {power : Nat} (small : power ≤ 308) :
    ∃ mantissa exponent, Binary.ofFloat (nearest 1 power) = .finite false mantissa exponent ∧
      1 ≤ amount mantissa exponent := by
  have greatest : IsCanonical (2 * leadingBit - 1) 971 :=
    ⟨by decide, by decide, le_rfl, .inl (by decide)⟩
  have whole : ((1 : Nat) : ℚ) * 10 ^ (power : Int) = 10 ^ power := by
    rw [Nat.cast_one, one_mul, zpow_natCast]
  have below : (10 : ℚ) ^ power ≤ amount (2 * leadingBit - 1) 971 := by
    calc (10 : ℚ) ^ power ≤ 10 ^ 308 := pow_le_pow_right₀ (by norm_num) small
      _ ≤ ((2 * leadingBit - 1 : Nat) : ℚ) * 2 ^ 971 := by
        exact_mod_cast (by decide +kernel : 10 ^ 308 ≤ (2 * leadingBit - 1) * 2 ^ 971)
      _ = amount (2 * leadingBit - 1) 971 := by rw [amount, zpow_ofNat]
  have rounded := isRounded_nearest 1 power
  rw [whole] at rounded
  obtain ⟨mantissa, exponent, rounds, parts⟩ := rounded.exists_parts_of_le greatest below
  refine ⟨mantissa, exponent, parts, ?_⟩
  -- one is a double, so the result is no farther from the power than one is
  have one : IsAligned leadingBit (-52) := ⟨by decide, by decide, .inl le_rfl⟩
  have unit : amount leadingBit (-52) = 1 := by norm_num [amount, leadingBit]
  have near := rounds.nearest one
  have least : (1 : ℚ) ≤ 10 ^ power := one_le_pow₀ (by norm_num)
  rw [unit, abs_of_nonpos (by linarith : (1 : ℚ) - 10 ^ power ≤ 0)] at near
  have low := neg_abs_le (amount mantissa exponent - 10 ^ power)
  linarith

/-- A finite double divided by one that is at least 1 is finite. -/
theorem isFinite_div {left right : Float} {negative : Bool} {mantissa : Nat} {exponent : Int}
    (finite : left.isFinite) (parts : Binary.ofFloat right = .finite negative mantissa exponent)
    (large : 1 ≤ amount mantissa exponent) : (left / right).isFinite := by
  obtain ⟨minus, dividend, power, known⟩ := (isFinite_iff left).mp finite
  have nonzero : mantissa ≠ 0 := by
    rintro rfl
    norm_num [amount] at large
  refine (isRounded_div known parts nonzero).isFinite_of_le (isCanonical_of_ofFloat known) ?_
  exact div_le_self (amount_nonneg dividend power) large

/-- A product of finite doubles that is not infinite is finite. -/
theorem isFinite_mul {left right : Float} (finite : left.isFinite) (other : right.isFinite)
    (bounded : (left * right).isInf = false) : (left * right).isFinite := by
  obtain ⟨_, _, _, first⟩ := (isFinite_iff left).mp finite
  obtain ⟨_, _, _, second⟩ := (isFinite_iff right).mp other
  exact (isRounded_mul first second).isFinite_of_not_isInf bounded

end LaserCut.Decimal
