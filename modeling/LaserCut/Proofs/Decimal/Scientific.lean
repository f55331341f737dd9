/-
# Decimal numbers to doubles

Core reads few digits with a small power of ten by one exact product or quotient
of doubles, and everything else from the integers themselves, with a limit on
either side beyond which the result is infinite or zero.  Whichever way it takes,
the double is the one that the number rounds to.
-/

import Mathlib
import LaserCut.Proofs.Decimal.Arithmetic

namespace LaserCut.Decimal

open Float.Model (UnpackedFloat Format totalExponent)
open Float.Model.UnpackedFloat

/-- A whole number of at most 53 bits is a double. -/
theorem ofFloat_toFloat {n : Nat} (small : n < 2 * leadingBit) :
    ∃ mantissa exponent, Binary.ofFloat n.toUInt64.toFloat = .finite false mantissa exponent ∧
      amount mantissa exponent = n := by
  rcases n.eq_zero_or_pos with rfl | positive
  · exact ⟨0, -1074, by decide, by simp [amount]⟩
  · have canonical := isCanonical_whole positive small
    have nonzero : 0 < n * 2 ^ wholeShift n := by positivity
    have double : IsDouble (.finite .positive (n * 2 ^ wholeShift n) (-wholeShift n) nonzero) :=
      canonical
    refine ⟨n * 2 ^ wholeShift n, -wholeShift n, ?_, ?_⟩
    · change Binary.ofFloat (.ofModel (.pack (ofUInt64 Format.binary64 n.toUInt64))) = _
      rw [ofUInt64_eq positive small, ofFloat_pack double]
      rfl
    · rw [← amount_shifted, neg_add_cancel, amount, zpow_zero, mul_one]

/-- The powers of ten that core keeps in a table are exact. -/
theorem ofFloat_powerOfTen (e : Fin 23) :
    Binary.ofFloat Float.exactlyRepresentablePowersOfTen[e] =
      .finite false (5 ^ e.val * 2 ^ wholeShift (5 ^ e.val)) (e.val - wholeShift (5 ^ e.val)) := by
  revert e
  decide +kernel

/-- A power of ten by its factors. -/
theorem amount_powerOfTen (count shift : Nat) :
    amount (5 ^ count * 2 ^ shift) (count - shift) = 10 ^ count := by
  have ten : (10 : ℚ) ^ count = 5 ^ count * 2 ^ count := by
    rw [← mul_pow]
    norm_num
  rw [← amount_shifted, sub_add_cancel, amount, zpow_natCast, ten]
  push_cast
  rfl

/-- Whatever is not negative and not too large rounds to zero. -/
theorem roundsTo_tiny {exact : ℚ} (nonneg : 0 ≤ exact) (tiny : exact ≤ 2 ^ (-1075 : Int)) :
    RoundsTo exact 0 (-1074) := by
  have least : (0 : ℚ) ≤ gapBelow 0 (-1074) * 2 ^ (-1074 - 2 : Int) := by positivity
  refine ⟨⟨by decide, le_rfl, .inr rfl⟩, ?_, ?_, fun _ => rfl⟩
  · rw [amount_zero]
    linarith
  · rwa [amount_zero, zero_add]

/-- A rational that is too large rounds to an exponent that is too large. -/
theorem RoundsTo.overflow {exact : ℚ} {mantissa : Nat} {exponent : Int}
    (rounds : RoundsTo exact mantissa exponent) (large : 2 ^ (1025 : Int) ≤ exact) :
    971 < exponent := by
  by_contra fits
  have small : (mantissa : ℚ) < 2 ^ (53 : Int) := by
    have := rounds.aligned.small
    have bound : (mantissa : ℚ) < (2 * leadingBit : Nat) := by exact_mod_cast this
    refine bound.trans_le (le_of_eq ?_)
    norm_num [leadingBit]
  have unit : (2 : ℚ) ^ exponent ≤ 2 ^ (971 : Int) := zpow_le_zpow_right₀ one_le_two (by omega)
  have half : (2 : ℚ) ^ (exponent - 1) ≤ 2 ^ (971 : Int) :=
    zpow_le_zpow_right₀ one_le_two (by omega)
  have bound : amount mantissa exponent ≤ 2 ^ (53 : Int) * 2 ^ (971 : Int) :=
    mul_le_mul small.le unit (by positivity) (by positivity)
  have high := rounds.high
  have split : (2 : ℚ) ^ (1025 : Int) = 2 ^ (54 : Int) * 2 ^ (971 : Int) := by
    rw [← zpow_add₀ two_ne_zero]
    norm_num
  have positive : (0 : ℚ) < 2 ^ (971 : Int) := by positivity
  rw [split] at large
  generalize (2 : ℚ) ^ (971 : Int) = most at half bound large positive
  norm_num at bound large
  linarith

/-- Digits with a power of ten behind them round to the product that core forms. -/
theorem product_spec {digits : Nat} (count : Nat) (positive : 0 < digits <<< 53)
    (positive_power : 0 < 10 ^ count) :
    ∃ rounded shifted,
      Binary.ofUnpacked (UnpackedFloat.mul Format.binary64
          (.finite .positive (digits <<< 53) (-53) positive)
          (.finite .positive (10 ^ count) 0 positive_power)) =
        .finite false rounded shifted ∧
      RoundsTo (digits * 10 ^ count) rounded shifted := by
  have nonzero : 0 < digits := Nat.pos_of_ne_zero (by rintro rfl; simp at positive)
  have long : leadingBit ≤ digits <<< 53 * 10 ^ count := by
    rw [Nat.shiftLeft_eq]
    calc 2 ^ 52 ≤ 2 ^ 53 := by decide
      _ ≤ digits * 2 ^ 53 := Nat.le_mul_of_pos_left _ nonzero
      _ ≤ digits * 2 ^ 53 * 10 ^ count := Nat.le_mul_of_pos_right _ positive_power
  have whole : amount (digits <<< 53) (-53) * amount (10 ^ count) 0 = digits * 10 ^ count := by
    have shifted := amount_shifted digits (-53) 53
    rw [← Nat.shiftLeft_eq] at shifted
    rw [← shifted, amount, amount]
    norm_num
  obtain ⟨rounded, shifted, parts, rounds⟩ :=
    @mul_finite_spec .positive .positive _ _ (-53) 0 positive positive_power
      (le_targetExponent (.inl long))
  rw [whole] at rounds
  exact ⟨rounded, shifted, parts, rounds⟩

/-- Digits with many zeros behind them are beyond every double. -/
theorem two_zpow_le_decimal {digits count : Nat} (nonzero : 0 < digits) (large : 1025 ≤ count) :
    (2 : ℚ) ^ (1025 : Int) ≤ digits * 10 ^ count := by
  calc (2 : ℚ) ^ (1025 : Int) ≤ 2 ^ (count : Int) := zpow_le_zpow_right₀ one_le_two (by omega)
    _ = 2 ^ count := zpow_natCast _ _
    _ ≤ 10 ^ count := by gcongr; norm_num
    _ ≤ digits * 10 ^ count := le_mul_of_one_le_left (by positivity) (by exact_mod_cast nonzero)

/-- Digits with the point far in front of them are at most half of the least
positive double. -/
theorem decimal_le_two_zpow {digits count : Nat} (small : 1075 + (digits.log2 + 1) ≤ count) :
    (digits : ℚ) * 10 ^ (-(count : Int)) ≤ 2 ^ (-1075 : Int) := by
  have length : (digits : ℚ) ≤ 2 ^ (digits.log2 + 1) := by
    exact_mod_cast Nat.lt_log2_self.le
  rw [zpow_neg, zpow_natCast, ← div_eq_mul_inv, div_le_iff₀ (by positivity), zpow_neg,
    inv_mul_eq_div, le_div_iff₀ (by positivity)]
  calc (digits : ℚ) * 2 ^ (1075 : Int) ≤ 2 ^ (digits.log2 + 1) * 2 ^ (1075 : Int) := by gcongr
    _ = 2 ^ (1075 + (digits.log2 + 1)) := by
        rw [← zpow_natCast, ← zpow_natCast, ← zpow_add₀ two_ne_zero]
        congr 1
        push_cast
        ring
    _ ≤ 2 ^ count := pow_le_pow_right₀ one_le_two small
    _ ≤ 10 ^ count := by gcongr; norm_num

/-- The double that core reads from digits and a power of ten is the one that the
number rounds to. -/
theorem isRounded_ofScientific (digits : Nat) (power : Int) :
    IsRounded (.ofModel (.pack (UnpackedFloat.ofScientific Format.binary64 digits power))) false
      (digits * 10 ^ power) := by
  unfold UnpackedFloat.ofScientific
  split_ifs with zero large tiny up
  · rw [zero, Nat.cast_zero, zero_mul]
    exact isRounded_pack rfl roundsTo_zero
  · have nonzero : 0 < digits := Nat.pos_of_ne_zero zero
    have bound : 2048 < power := large
    obtain ⟨count, rfl⟩ := Int.eq_ofNat_of_zero_le (by omega : 0 ≤ power)
    obtain ⟨rounded, shifted, -, rounds⟩ := @product_spec digits count
      (by rw [Nat.shiftLeft_eq]; positivity) (by positivity)
    have infinity : IsDouble (.infinity .positive) := trivial
    have overflow := rounds.overflow (two_zpow_le_decimal nonzero (by omega))
    refine ⟨rounded, shifted, by rwa [zpow_natCast], ?_⟩
    rw [if_neg (by omega), ofFloat_pack infinity]
    rfl
  · refine isRounded_pack rfl (roundsTo_tiny (by positivity) ?_)
    obtain ⟨count, rfl⟩ := Int.exists_eq_neg_ofNat (by omega : power ≤ 0)
    have bound : -(count : Int) < -(2 ^ 11 + (digits.log2 : Int)) := tiny
    exact decimal_le_two_zpow (by omega)
  · obtain ⟨count, rfl⟩ := Int.eq_ofNat_of_zero_le up
    obtain ⟨_, _, parts, rounds⟩ := product_spec count _ _
    refine isRounded_pack parts ?_
    rw [zpow_natCast]
    exact rounds
  · obtain ⟨count, rfl⟩ := Int.exists_eq_neg_ofNat (by omega : power ≤ 0)
    obtain ⟨rounded, shifted, parts, rounds⟩ := div_finite_spec .positive .positive _ _
    refine isRounded_pack parts ?_
    have quotient : amount digits 0 / amount (10 ^ (-(-(count : Int))).toNat) 0 =
        digits * 10 ^ (-(count : Int)) := by
      rw [neg_neg, Int.toNat_natCast, zpow_neg, zpow_natCast, ← div_eq_mul_inv, amount, amount,
        zpow_zero, mul_one, mul_one]
      push_cast
      rfl
    rw [← quotient]
    exact rounds

/-- A number that is read is rounded correctly: few digits with a small power by
one exact product or quotient, and all others from the integers themselves. -/
theorem isRounded_nearest (digits : Nat) (power : Int) :
    IsRounded (nearest digits power) false (digits * 10 ^ power) := by
  rw [nearest, Float.ofScientific]
  by_cases few : digits < 2 ^ 53 ∧ power.natAbs ≤ 22
  · obtain ⟨small, short⟩ := few
    obtain ⟨mantissa, exponent, parts, whole⟩ := @ofFloat_toFloat digits small
    have ten := ofFloat_powerOfTen ⟨power.natAbs, by omega⟩
    have value := amount_powerOfTen power.natAbs (wholeShift (5 ^ power.natAbs))
    rw [dif_pos ⟨small, short⟩]
    split_ifs with down
    · obtain ⟨count, rfl⟩ := Int.exists_eq_neg_ofNat (of_decide_eq_true down).le
      have quotient := isRounded_div parts ten (by positivity)
      rw [value, whole] at quotient
      simpa [div_eq_mul_inv] using quotient
    · obtain ⟨count, rfl⟩ := Int.eq_ofNat_of_zero_le (by simpa using down)
      have product := isRounded_mul parts ten
      rw [value, whole] at product
      simpa using product
  · have sign : (if decide (power < 0) = true then Int.negOfNat power.natAbs
        else Int.ofNat power.natAbs) = power := by
      split_ifs with down
      · rw [Int.negOfNat_eq, Int.ofNat_eq_natCast]
        have := of_decide_eq_true down
        omega
      · simpa using down
    rw [dif_neg few]
    have rounded := isRounded_ofScientific digits power
    simp only [sign]
    exact rounded

/-- Of a double and what it was rounded from, the parts follow from the rational. -/
theorem IsRounded.parts {value : Float} {negative : Bool} {exact : ℚ} {mantissa : Nat}
    {exponent : Int} (rounded : IsRounded value negative exact)
    (rounds : RoundsTo exact mantissa exponent) (fits : exponent ≤ 971) :
    Binary.ofFloat value = .finite negative mantissa exponent := by
  obtain ⟨_, _, again, parts⟩ := rounded
  obtain ⟨rfl, rfl⟩ := again.unique rounds
  rw [parts, if_pos fits]

/-- A whole number of at most 53 bits, and its products with powers of two, are
doubles: rounding changes nothing. -/
theorem IsRounded.exists_parts {value : Float} {negative : Bool} {n count : Nat}
    (rounded : IsRounded value negative (n * 2 ^ count)) (positive : 0 < n)
    (small : n < 2 * leadingBit) (few : count ≤ 971) :
    ∃ mantissa exponent, Binary.ofFloat value = .finite negative mantissa exponent ∧
      mantissa ≠ 0 ∧ amount mantissa exponent = n * 2 ^ count := by
  have canonical := isCanonical_whole positive small
  have leading : leadingBit ≤ n * 2 ^ wholeShift n :=
    canonical.leading.resolve_right (by unfold wholeShift; omega)
  have aligned : IsAligned (n * 2 ^ wholeShift n) (-wholeShift n + count) :=
    ⟨canonical.small, by have := canonical.least; omega, .inl leading⟩
  have same : amount (n * 2 ^ wholeShift n) (-wholeShift n + count) = n * 2 ^ count := by
    rw [amount_shifted, mul_right_comm, ← amount_shifted, neg_add_cancel, amount, zpow_zero,
      mul_one]
    push_cast
    rfl
  have itself := RoundsTo.of_amount aligned
  rw [same] at itself
  exact ⟨_, _, rounded.parts itself (by omega), by positivity, same⟩

/-- The powers of ten that are doubles. -/
theorem exists_parts_powerOfTen {count : Nat} (few : count ≤ 22) :
    ∃ mantissa exponent, Binary.ofFloat (nearest 1 count) = .finite false mantissa exponent ∧
      mantissa ≠ 0 ∧ amount mantissa exponent = 10 ^ count := by
  have rounded := isRounded_nearest 1 count
  have factors : ((1 : Nat) : ℚ) * 10 ^ (count : Int) = (5 ^ count : Nat) * 2 ^ count := by
    rw [zpow_natCast, Nat.cast_one, one_mul]
    push_cast
    rw [← mul_pow]
    norm_num
  have small : 5 ^ count < 2 * leadingBit :=
    (Nat.pow_le_pow_right (by decide) few).trans_lt (by decide)
  rw [factors] at rounded
  obtain ⟨mantissa, exponent, parts, nonzero, value⟩ :=
    rounded.exists_parts (by positivity) small (by omega)
  refine ⟨mantissa, exponent, parts, nonzero, ?_⟩
  rw [value, ← factors, Nat.cast_one, one_mul, zpow_natCast]

end LaserCut.Decimal
