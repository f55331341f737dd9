/-
# Square roots that are large enough

Core computes the root of a mantissa as a whole number, with a remainder that tells on which
side of a half the root lies, and rounds once.  So a root is not below a double whose square is
not above the number.  Such bounds pass through rounding: what is not below a double stays so
when it is rounded, up to infinity.  A line that is longer than a limit, by the squares of the
two, is therefore divided into one part at least.
-/

import Mathlib
import LaserCut.Geometry.Polyline
import LaserCut.Proofs.Decimal.Finite
import LaserCut.Proofs.Decimal.Reread
import LaserCut.Proofs.Decimal.Sums

namespace LaserCut.Decimal

open Float.Model (UnpackedFloat Format totalExponent)
open Float.Model.UnpackedFloat

/-- What core remembers of the root of a whole number. -/
def rootAccuracy (radicand : Nat) : Accuracy :=
  if radicand - radicand.sqrt * radicand.sqrt = 0 then .exact
  else .inexact (if radicand - radicand.sqrt * radicand.sqrt ≤ radicand.sqrt then .lt else .gt)

/-- The remembered root stands for a rational that is not below a number whose square is not
above the radicand. -/
theorem exists_represents_root {radicand : Nat} {bound : ℚ} (nonneg : 0 ≤ bound)
    (below : bound * bound ≤ radicand) : ∃ root, bound ≤ root ∧
      Represents (.ofMantissaAndAccuracy radicand.sqrt (rootAccuracy radicand)) root := by
  have low := Nat.sqrt_le radicand
  have high := Nat.lt_succ_sqrt radicand
  have least : (0 : ℚ) ≤ radicand.sqrt := Nat.cast_nonneg _
  unfold rootAccuracy
  generalize radicand.sqrt = whole at low high least ⊢
  -- between the bound and an end that it does not reach there is a rational
  have between {start stop : ℚ} (order : start < stop) (reached : bound < stop) :
      ∃ root, bound ≤ root ∧ start < root ∧ root < stop := by
    obtain ⟨root, first, second⟩ := exists_between (max_lt order reached)
    exact ⟨root, (le_max_right _ _).trans first.le, (le_max_left _ _).trans_lt first, second⟩
  split_ifs with exact small
  · have square : radicand = whole * whole := by omega
    rw [square] at below
    push_cast at below
    exact ⟨whole, (mul_self_le_mul_self_iff nonneg least).mpr below, rfl⟩
  · have square : (radicand : ℚ) ≤ whole * whole + whole := by
      exact_mod_cast (by omega : radicand ≤ whole * whole + whole)
    have half : (whole : ℚ) < whole + 1 / 2 := by linarith
    obtain ⟨root, reached, above, under⟩ := between half (by nlinarith)
    exact ⟨root, reached, above, under⟩
  · have square : (radicand : ℚ) < (whole + 1) * (whole + 1) := by exact_mod_cast high
    have half : (whole : ℚ) + 1 / 2 < whole + 1 := by linarith
    obtain ⟨root, reached, above, under⟩ := between half (by nlinarith)
    exact ⟨root, reached, above, under⟩

/-- The root of a mantissa is computed to enough bits. -/
theorem root_fits {mantissa count : Nat} {exponent target : Int} (positive : 0 < mantissa)
    (chosen : target =
      min (exponent.ediv 2)
        (Format.binary64.targetExponent ((totalExponent mantissa exponent + 1).ediv 2)))
    (shift : exponent - 2 * target = count) :
    target ≤ Format.binary64.targetExponent (totalExponent (mantissa * 2 ^ count).sqrt target) := by
  change target = min (exponent / 2)
    (max (((mantissa.log2 : Int) + 1 + exponent + 1) / 2 - 53) (-1074)) at chosen
  refine le_targetExponent ?_
  rcases le_or_gt target (-1074) with small | large
  · exact .inr small
  · -- the radicand has 105 bits, so its root has 53
    have bits : 104 ≤ mantissa.log2 + count := by omega
    refine .inl (Nat.le_sqrt.mpr ?_)
    calc 2 ^ 52 * 2 ^ 52 ≤ 2 ^ (mantissa.log2 + count) := by
          rw [← pow_add]
          exact Nat.pow_le_pow_right two_pos bits
      _ ≤ mantissa * 2 ^ count := two_pow_log2_add_le positive count

/-- Core rounds the root of a positive number from a rational that is not below a number whose
square is not above that. -/
theorem exists_isRounded_root {mantissa : Nat} {exponent : Int} {bound : ℚ}
    (positive : 0 < mantissa) (nonneg : 0 ≤ bound)
    (below : bound * bound ≤ amount mantissa exponent) :
    ∃ root, bound ≤ root ∧ IsRounded (.ofModel (.pack
      (UnpackedFloat.sqrt Format.binary64 (.finite .positive mantissa exponent positive))))
        false root := by
  obtain ⟨target, chosen⟩ : ∃ target, target = min (exponent.ediv 2)
      (Format.binary64.targetExponent ((totalExponent mantissa exponent + 1).ediv 2)) := ⟨_, rfl⟩
  have halved : target ≤ exponent / 2 := chosen ▸ min_le_left _ _
  obtain ⟨count, shift⟩ := Int.le.dest (by omega : 2 * target ≤ exponent)
  have steps : exponent - 2 * target = count := by omega
  have unit : (0 : ℚ) < 2 ^ target := by positivity
  -- at the chosen exponent the bound is divided by the unit, and the number by its square
  have scaled : bound / 2 ^ target * (bound / 2 ^ target) ≤ (mantissa * 2 ^ count : Nat) := by
    rw [div_mul_div_comm, div_le_iff₀ (by positivity)]
    refine below.trans_eq ?_
    rw [← shift, amount_shifted, amount, two_mul, zpow_add₀ two_ne_zero]
  obtain ⟨root, reached, represents⟩ := exists_represents_root (div_nonneg nonneg unit.le) scaled
  refine ⟨root * 2 ^ target, (div_le_iff₀ unit).mp reached, ?_⟩
  rw [← mul_div_cancel_right₀ root unit.ne'] at represents
  obtain ⟨_, _, known, rounds⟩ :=
    roundWithAccuracy_spec .positive represents (root_fits positive chosen steps)
  have core : UnpackedFloat.sqrt Format.binary64 (.finite .positive mantissa exponent positive) =
      roundWithAccuracy Format.binary64 .positive (mantissa * 2 ^ count).sqrt target
        (rootAccuracy (mantissa * 2 ^ count)) := by
    have amount_shift : (exponent - 2 * target).toNat = count := by omega
    simp only [UnpackedFloat.sqrt, sqrtCore, ← chosen, amount_shift, Nat.shiftLeft_eq]
    rfl
  rw [core]
  exact isRounded_pack known rounds

/-- A double is unpacked to what its parts say. -/
theorem unpack_of_parts {value : Float} {unpacked : UnpackedFloat}
    (parts : Binary.ofFloat value = Binary.ofUnpacked unpacked) :
    value.toModel.unpack = unpacked :=
  ofUnpacked_injective ((ofFloat_eq value).symm.trans parts)

/-- The root of a positive double is rounded from a rational that is not below a number whose
square is not above the double. -/
theorem exists_isRounded_sqrt {value : Float} {mantissa : Nat} {exponent : Int} {bound : ℚ}
    (parts : Binary.ofFloat value = .finite false mantissa exponent) (positive : 0 < mantissa)
    (nonneg : 0 ≤ bound) (below : bound * bound ≤ amount mantissa exponent) :
    ∃ root, bound ≤ root ∧ IsRounded value.sqrt false root := by
  have unpacked : value.toModel.unpack = .finite .positive mantissa exponent positive :=
    unpack_of_parts parts
  change ∃ root, bound ≤ root ∧ IsRounded
    (.ofModel (.pack (UnpackedFloat.sqrt Format.binary64 value.toModel.unpack))) false root
  rw [unpacked]
  exact exists_isRounded_root positive nonneg below

/-- A number with a mantissa that is not zero is positive. -/
theorem amount_pos {mantissa : Nat} (positive : 0 < mantissa) (exponent : Int) :
    0 < amount mantissa exponent := by
  unfold amount
  positivity

/-- A number that is positive has a mantissa that is not zero. -/
theorem mantissa_pos {mantissa : Nat} {exponent : Int} (positive : 0 < amount mantissa exponent) :
    0 < mantissa := by
  rw [Nat.pos_iff_ne_zero]
  rintro rfl
  simp [amount] at positive

/-- A double is not below a bound that is not negative. -/
inductive IsAtLeast (value : Float) (bound : ℚ) : Prop
  | infinite (parts : Binary.ofFloat value = .infinite false)
  | finite {mantissa : Nat} {exponent : Int}
      (parts : Binary.ofFloat value = .finite false mantissa exponent)
      (above : bound ≤ amount mantissa exponent)

/-- What is rounded from a number is not below a double that is not above the number. -/
theorem IsRounded.isAtLeast {value : Float} {exact : ℚ} {mantissa : Nat} {exponent : Int}
    (rounded : IsRounded value false exact) (aligned : IsAligned mantissa exponent)
    (below : amount mantissa exponent ≤ exact) : IsAtLeast value (amount mantissa exponent) := by
  obtain ⟨result, power, rounds, parts⟩ := rounded
  split_ifs at parts with fits
  · refine .finite parts ?_
    have near := rounds.nearest aligned
    rw [abs_of_nonpos (by linarith : amount mantissa exponent - exact ≤ 0)] at near
    have low := neg_abs_le (amount result power - exact)
    linarith
  · exact .infinite parts

/-- One is a double. -/
theorem exists_isAligned_one :
    ∃ mantissa exponent, IsAligned mantissa exponent ∧ amount mantissa exponent = 1 := by
  simpa using isAligned_whole (n := 1) (by decide)

namespace IsAtLeast

variable {value limit : Float} {mantissa : Nat} {exponent : Int} {bound : ℚ}

/-- The root of infinity is infinity. -/
theorem ofFloat_sqrt_infinite (parts : Binary.ofFloat value = .infinite false) :
    Binary.ofFloat value.sqrt = .infinite false := by
  have infinity : Binary.ofFloat (1.0 / 0.0) = .infinite false := by decide
  rw [eq_of_parts (parts.trans infinity.symm)]
  decide

/-- Infinity divided by a positive double is infinity. -/
theorem ofFloat_infinite_div (parts : Binary.ofFloat value = .infinite false)
    (divisor : Binary.ofFloat limit = .finite false mantissa exponent) (positive : 0 < mantissa) :
    Binary.ofFloat (value / limit) = .infinite false := by
  have dividend : value.toModel.unpack = .infinity .positive := unpack_of_parts parts
  have unpacked : limit.toModel.unpack = .finite .positive mantissa exponent positive :=
    unpack_of_parts divisor
  have infinity : IsDouble (.infinity .positive) := trivial
  change Binary.ofFloat (.ofModel (.pack
    (UnpackedFloat.div Format.binary64 value.toModel.unpack limit.toModel.unpack))) = _
  rw [dividend, unpacked]
  exact ofFloat_pack infinity

/-- The root of a double that is not below a square is not below its side. -/
theorem sqrt (known : IsAtLeast value (amount mantissa exponent * amount mantissa exponent))
    (aligned : IsAligned mantissa exponent) (positive : 0 < mantissa) :
    IsAtLeast value.sqrt (amount mantissa exponent) := by
  have nonneg := amount_nonneg mantissa exponent
  cases known with
  | infinite parts => exact .infinite (ofFloat_sqrt_infinite parts)
  | @finite magnitude power parts above =>
      have side := amount_pos positive exponent
      have counts : 0 < magnitude := mantissa_pos ((mul_pos side side).trans_le above)
      obtain ⟨root, reached, rounded⟩ := exists_isRounded_sqrt parts counts nonneg above
      exact rounded.isAtLeast aligned reached

/-- A double divided by a positive one that it is not below is not below one. -/
theorem div (known : IsAtLeast value (amount mantissa exponent))
    (divisor : Binary.ofFloat limit = .finite false mantissa exponent) (positive : 0 < mantissa) :
    IsAtLeast (value / limit) 1 := by
  cases known with
  | infinite parts => exact .infinite (ofFloat_infinite_div parts divisor positive)
  | @finite magnitude power parts above =>
      obtain ⟨one, unit, aligned, equal⟩ := exists_isAligned_one
      rw [← equal]
      refine (isRounded_div parts divisor positive.ne').isAtLeast aligned ?_
      rw [equal, one_le_div (amount_pos positive exponent)]
      exact above

/-- The ceiling of a double that is not below one counts something. -/
theorem one_le_ceilingCount (known : IsAtLeast value 1) : 1 ≤ ceilingCount value := by
  have most : 1 ≤ maxCount := by decide
  cases known with
  | infinite parts =>
      simp only [ceilingCount, parts]
      exact most
  | @finite mantissa exponent parts above =>
      have counts : 0 < mantissa := mantissa_pos (zero_lt_one.trans_le above)
      have up : 0 < (powerOfTwo exponent).1 := Nat.two_pow_pos _
      have down : 0 < (powerOfTwo exponent).2 := Nat.two_pow_pos _
      have total : 0 < mantissa * (powerOfTwo exponent).1 := Nat.mul_pos counts up
      have reached : (powerOfTwo exponent).2 ≤
          mantissa * (powerOfTwo exponent).1 + (powerOfTwo exponent).2 - 1 := by omega
      simp only [ceilingCount, parts]
      exact le_min ((Nat.one_le_div_iff down).mpr reached) most

/-- A bound of a double is a bound of its count. -/
theorem unitsOf_le (known : IsAtLeast value (amount mantissa exponent))
    (canonical : IsCanonical mantissa exponent) :
    (unitsOf mantissa exponent : Int) ≤ (Binary.ofFloat value).units := by
  cases known with
  | infinite parts =>
      have below := canonical.unitsOf_lt
      rw [parts, Binary.units, signedInt, if_neg Bool.false_ne_true]
      omega
  | finite parts above =>
      have unit : (0 : ℚ) < 2 ^ (-1074 : Int) := by positivity
      rw [amount_eq_units canonical.least, amount_eq_units (isCanonical_of_ofFloat parts).least,
        mul_le_mul_iff_left₀ unit] at above
      rw [parts, Binary.units, signedInt, if_neg Bool.false_ne_true]
      exact_mod_cast above

/-- A double that is above the square of another one, as the square is rounded, is not below the
exact square. -/
theorem of_mul_self_lt (parts : Binary.ofFloat limit = .finite false mantissa exponent)
    (above : limit * limit < value) :
    IsAtLeast value (amount mantissa exponent * amount mantissa exponent) := by
  obtain ⟨-, numeral, order⟩ := lt_iff.mp above
  have rounded : IsRounded (limit * limit) false
      (amount mantissa exponent * amount mantissa exponent) := isRounded_mul parts parts
  have zero : IsCanonical 0 (-1074) := ⟨by decide, le_rfl, by decide, .inr rfl⟩
  have side : amount 0 (-1074) ≤ amount mantissa exponent * amount mantissa exponent := by
    rw [amount_zero]
    exact mul_self_nonneg _
  have nonneg := (rounded.isAtLeast zero.isAligned side).unitsOf_le zero
  rw [show unitsOf 0 (-1074) = 0 from Nat.zero_mul _] at nonneg
  cases known : Binary.ofFloat value with
  | nan =>
      rw [(isNaN_iff value).mpr known] at numeral
      cases numeral
  | infinite negative =>
      cases negative with
      | false => exact .infinite known
      | true =>
          rw [known, Binary.units, signedInt, if_pos rfl] at order
          omega
  | finite negative magnitude power =>
      cases negative with
      | false =>
          refine .finite known (le_of_not_gt fun below => ?_)
          have canonical := isCanonical_of_ofFloat known
          have reached := (rounded.isAtLeast canonical.isAligned below.le).unitsOf_le canonical
          rw [known, Binary.units, signedInt, if_neg Bool.false_ne_true] at order
          omega
      | true =>
          rw [known, Binary.units, signedInt, if_pos rfl] at order
          omega

end IsAtLeast

/-- No double counts more than infinity. -/
theorem units_le_overflowUnits (value : Float) :
    (Binary.ofFloat value).units ≤ overflowUnits := by
  have overflow := overflowUnits_pos
  cases known : Binary.ofFloat value with
  | nan =>
      rw [Binary.units]
      omega
  | infinite negative =>
      rw [Binary.units, signedInt]
      split_ifs <;> omega
  | finite negative mantissa exponent =>
      have below := (isCanonical_of_ofFloat known).unitsOf_lt
      rw [Binary.units, signedInt]
      split_ifs <;> omega

end LaserCut.Decimal

namespace LaserCut.Path

open Decimal

/-- A line that is longer than a positive limit has at least one part. -/
theorem one_le_parts {limit : Float} {start stop : Point Float} (positive : 0 < limit)
    (long : limit * limit < start.distanceSquared stop) : 1 ≤ parts limit start stop := by
  obtain ⟨-, number, above⟩ := lt_iff.mp positive
  rw [show (Binary.ofFloat 0).units = 0 by decide] at above
  cases known : Binary.ofFloat limit with
  | nan =>
      rw [(isNaN_iff limit).mpr known] at number
      cases number
  | infinite negative =>
      -- nothing is above the square of infinity
      cases negative with
      | false =>
          have infinity : Binary.ofFloat (1.0 / 0.0) = .infinite false := by decide
          have square : (1.0 / 0.0 : Float) * (1.0 / 0.0) = 1.0 / 0.0 := by decide
          rw [eq_of_parts (known.trans infinity.symm), square, lt_iff, infinity] at long
          exact absurd long.2.2 (units_le_overflowUnits _).not_gt
      | true =>
          rw [known, Binary.units, signedInt, if_pos rfl] at above
          omega
  | finite negative mantissa exponent =>
      rw [known, Binary.units] at above
      cases negative with
      | false =>
          have counts : 0 < mantissa := by
            rw [Nat.pos_iff_ne_zero]
            rintro rfl
            simp [signedInt, unitsOf] at above
          have aligned := (isCanonical_of_ofFloat known).isAligned
          have root := (IsAtLeast.of_mul_self_lt known long).sqrt aligned counts
          exact (root.div known counts).one_le_ceilingCount
      | true =>
          rw [signedInt, if_pos rfl] at above
          omega

end LaserCut.Path
