/-
# Correctly rounded arithmetic

Core computes a product or a quotient exactly, with one mantissa and two bits that
say what lies behind it, and rounds once.  What it returns is the magnitude that
the exact value rounds to.
-/

import Mathlib
import LaserCut.Proofs.Decimal.Nearest
import LaserCut.Proofs.Decimal.Whole

namespace LaserCut.Decimal

open Float.Model (UnpackedFloat Format totalExponent)
open Float.Model.UnpackedFloat

/-- A mantissa and the bits behind it say where a rational lies: on the whole
number, below the half, on the half or above it. -/
def Represents : ExtendedMantissa → ℚ → Prop
  | ⟨mantissa, false, false⟩, exact => exact = mantissa
  | ⟨mantissa, false, true⟩, exact => mantissa < exact ∧ exact < mantissa + 1 / 2
  | ⟨mantissa, true, false⟩, exact => exact = mantissa + 1 / 2
  | ⟨mantissa, true, true⟩, exact => mantissa + 1 / 2 < exact ∧ exact < mantissa + 1

/-- A mantissa without anything behind it. -/
theorem represents_exact (mantissa : Nat) :
    Represents (.ofMantissaAndAccuracy mantissa .exact) mantissa :=
  rfl

/-- A quotient with its remainder. -/
theorem represents_quotient (numerator : Nat) {denominator : Nat} (positive : 0 < denominator) :
    Represents (.ofMantissaAndAccuracy (numerator / denominator)
      (accuracyOfFraction (numerator % denominator) denominator))
      (numerator / denominator : ℚ) := by
  have split : (numerator / denominator : ℚ) =
      (numerator / denominator : Nat) + (numerator % denominator : Nat) / denominator := by
    have parts := Nat.div_add_mod numerator denominator
    field_simp
    exact_mod_cast parts.symm
  have small := Nat.mod_lt numerator positive
  rw [split]
  generalize numerator / denominator = quotient
  generalize numerator % denominator = remainder at small
  have divisor : (0 : ℚ) < denominator := by exact_mod_cast positive
  have below : (remainder : ℚ) < denominator := by exact_mod_cast small
  unfold accuracyOfFraction
  split_ifs with divides
  · simp [divides, ExtendedMantissa.ofMantissaAndAccuracy, Represents]
  · have remains : (0 : ℚ) < remainder := by exact_mod_cast Nat.pos_of_ne_zero divides
    have fraction : (0 : ℚ) < remainder / denominator := by positivity
    rcases lt_trichotomy (2 * remainder) denominator with less | same | more
    · have bound : (remainder / denominator : ℚ) < 1 / 2 := by
        rw [div_lt_div_iff₀ divisor two_pos]
        exact_mod_cast (by omega : remainder * 2 < 1 * denominator)
      rw [compare_lt_iff_lt.mpr less]
      exact ⟨by linarith, by linarith⟩
    · have half : (remainder / denominator : ℚ) = 1 / 2 := by
        rw [div_eq_div_iff divisor.ne' two_ne_zero]
        exact_mod_cast (by omega : remainder * 2 = 1 * denominator)
      rw [compare_eq_iff_eq.mpr same]
      exact congrArg ((quotient : ℚ) + ·) half
    · have bound : (1 / 2 : ℚ) < remainder / denominator := by
        rw [div_lt_div_iff₀ two_pos divisor]
        exact_mod_cast (by omega : 1 * denominator < remainder * 2)
      have proper : (remainder / denominator : ℚ) < 1 := (div_lt_one divisor).mpr below
      rw [compare_gt_iff_gt.mpr more]
      exact ⟨by linarith, by linarith⟩

/-- A whole number is nearest to a rational, and even if another one is equally
near. -/
structure IsNearestWhole (exact : ℚ) (whole : Nat) : Prop where
  low : (whole : ℚ) - 1 / 2 ≤ exact
  high : exact ≤ whole + 1 / 2
  even : exact = whole - 1 / 2 ∨ exact = whole + 1 / 2 → whole % 2 = 0

namespace Represents

variable {extended : ExtendedMantissa} {exact : ℚ}

/-- The mantissa is the whole part. -/
theorem floor (represents : Represents extended exact) :
    extended.mantissa ≤ exact ∧ exact < extended.mantissa + 1 := by
  obtain ⟨mantissa, round, sticky⟩ := extended
  cases round <;> cases sticky <;> simp only [Represents] at represents ⊢ <;>
    constructor <;> linarith

/-- A shift by one bit halves. -/
theorem shiftRightOne (represents : Represents extended exact) :
    Represents extended.shiftRightOne (exact / 2) := by
  obtain ⟨mantissa, round, sticky⟩ := extended
  have parts : ((mantissa / 2 : Nat) : ℚ) * 2 + (mantissa % 2 : Nat) = mantissa := by
    exact_mod_cast Nat.div_add_mod' mantissa 2
  rcases Nat.mod_two_eq_zero_or_one mantissa with even | odd
  · rw [even] at parts
    push_cast at parts
    cases round <;> cases sticky <;>
      simp only [ExtendedMantissa.shiftRightOne, Represents, even, bne_self_eq_false,
        Bool.or_false, Bool.or_true, Bool.or_self] at represents ⊢ <;>
      first | linarith | (constructor <;> linarith)
  · rw [odd] at parts
    push_cast at parts
    cases round <;> cases sticky <;>
      simp only [ExtendedMantissa.shiftRightOne, Represents, odd, Nat.reduceBneDiff, Bool.or_false,
        Bool.or_true, Bool.or_self] at represents ⊢ <;>
      first | linarith | (constructor <;> linarith)

/-- A shift divides by a power of two. -/
theorem shiftRight (represents : Represents extended exact) (count : Nat) :
    Represents (extended >>> count) (exact / 2 ^ count) := by
  change Represents (Nat.repeat _ count _) _
  induction count with
  | zero => simpa [Nat.repeat] using represents
  | succ count ih =>
      rw [Nat.repeat, pow_succ, ← div_div]
      exact ih.shiftRightOne

/-- The rounded mantissa is the whole part or the number after it. -/
theorem roundedMantissa_bounds (extended : ExtendedMantissa) :
    extended.mantissa ≤ extended.roundedMantissa ∧
      extended.roundedMantissa ≤ extended.mantissa + 1 := by
  obtain ⟨mantissa, round, sticky⟩ := extended
  have bit : mantissa % 2 ≤ 1 := by omega
  cases round <;> cases sticky <;>
    simp [ExtendedMantissa.roundedMantissa, ExtendedMantissa.accuracy, Accuracy.roundToNearestEven,
      bit]

/-- The rounded mantissa is the nearest whole number. -/
theorem roundedMantissa (represents : Represents extended exact) :
    IsNearestWhole exact extended.roundedMantissa := by
  obtain ⟨mantissa, round, sticky⟩ := extended
  cases round with
  | false =>
      have kept : (⟨mantissa, false, sticky⟩ : ExtendedMantissa).roundedMantissa = mantissa := by
        cases sticky <;> rfl
      rw [kept]
      cases sticky <;> simp only [Represents] at represents <;>
        exact ⟨by linarith, by linarith, fun ends => by rcases ends with h | h <;> linarith⟩
  | true =>
      cases sticky with
      | true =>
          change IsNearestWhole exact (mantissa + 1)
          simp only [Represents] at represents
          constructor <;> push_cast
          · linarith
          · linarith
          · rintro (h | h) <;> linarith
      | false =>
          -- a tie goes to whichever of the two whole numbers is even
          change IsNearestWhole exact (mantissa + mantissa % 2)
          have bit : ((mantissa % 2 : Nat) : ℚ) ≤ 1 := by
            exact_mod_cast (by omega : mantissa % 2 ≤ 1)
          have nonneg : (0 : ℚ) ≤ (mantissa % 2 : Nat) := Nat.cast_nonneg _
          simp only [Represents] at represents
          constructor
          · rw [Nat.cast_add]
            linarith
          · rw [Nat.cast_add]
            linarith
          · intro _
            omega

end Represents

/-- A shift drops bits at the end of the mantissa. -/
theorem mantissa_shiftRight (extended : ExtendedMantissa) (count : Nat) :
    (extended >>> count).mantissa = extended.mantissa / 2 ^ count := by
  change (Nat.repeat ExtendedMantissa.shiftRightOne count extended).mantissa = _
  induction count with
  | zero => simp [Nat.repeat]
  | succ count ih =>
      rw [Nat.repeat, ExtendedMantissa.shiftRightOne, ih, Nat.div_div_eq_div_mul, pow_succ]

/-- What is known of the end of a number leaves its mantissa alone. -/
theorem mantissa_ofMantissaAndAccuracy (mantissa : Nat) (accuracy : Accuracy) :
    (ExtendedMantissa.ofMantissaAndAccuracy mantissa accuracy).mantissa = mantissa := by
  cases accuracy with
  | exact => rfl
  | inexact order => cases order <;> rfl

/-- Core shifts a mantissa to the exponent at which it has its leading bit in
place, and the bits that it shifts out are remembered. -/
theorem shiftToTargetExponent_spec {mantissa : Nat} {exponent : Int} {accuracy : Accuracy}
    {exact : ℚ}
    (represents : Represents (.ofMantissaAndAccuracy mantissa accuracy) (exact / 2 ^ exponent))
    (fits : exponent ≤ Format.binary64.targetExponent (totalExponent mantissa exponent)) :
    ∃ extended target,
      shiftToTargetExponent Format.binary64 mantissa exponent accuracy = (extended, target) ∧
        Represents extended (exact / 2 ^ target) ∧ -1074 ≤ target ∧
        extended.mantissa < 2 * leadingBit ∧
        (leadingBit ≤ extended.mantissa ∨ target = -1074) := by
  obtain ⟨count, reached⟩ := Int.le.dest fits
  have amount : (Format.binary64.targetExponent (totalExponent mantissa exponent) -
      exponent).toNat = count := by
    omega
  have scaled : exact / 2 ^ exponent / 2 ^ count = exact / 2 ^ (exponent + count) := by
    rw [zpow_add₀ two_ne_zero, zpow_natCast, div_div]
  have shifted := represents.shiftRight count
  rw [scaled] at shifted
  have kept : (ExtendedMantissa.ofMantissaAndAccuracy mantissa accuracy >>> count).mantissa =
      mantissa / 2 ^ count := by
    rw [mantissa_shiftRight, mantissa_ofMantissaAndAccuracy]
  have target : exponent + count = max ((mantissa.log2 : Int) + 1 + exponent - 53) (-1074) :=
    reached
  refine ⟨_, exponent + count, ?_, shifted, ?_, ?_, ?_⟩
  · rw [shiftToTargetExponent, shiftToExponent, amount]
  · rw [target]
    exact le_max_right _ _
  · rw [kept, Nat.div_lt_iff_lt_mul (Nat.two_pow_pos _)]
    calc mantissa < 2 ^ (mantissa.log2 + 1) := Nat.lt_log2_self
      _ ≤ 2 ^ (53 + count) := Nat.pow_le_pow_right two_pos (by omega)
      _ = 2 * leadingBit * 2 ^ count := by rw [pow_add]; rfl
  · rw [kept, Nat.le_div_iff_mul_le (Nat.two_pow_pos _)]
    rcases eq_or_ne (exponent + count) (-1074) with least | above
    · exact .inr least
    · left
      have length : mantissa.log2 = 52 + count := by omega
      calc leadingBit * 2 ^ count = 2 ^ mantissa.log2 := by rw [length, pow_add]; rfl
        _ ≤ mantissa := Nat.log2_self_le (by rintro rfl; simp at length; omega)

/-- A rational rounds to the nearest whole number of units, if the mantissa is in
place and no power of two is approached from below. -/
theorem IsNearestWhole.roundsTo {exact : ℚ} {mantissa : Nat} {exponent : Int}
    (nearest : IsNearestWhole (exact / 2 ^ exponent) mantissa)
    (aligned : IsAligned mantissa exponent)
    (above : mantissa = leadingBit → exponent ≠ -1074 → (mantissa : ℚ) ≤ exact / 2 ^ exponent) :
    RoundsTo exact mantissa exponent := by
  obtain ⟨whole, quarter⟩ := RoundsTo.half_unit exponent
  have unit : (0 : ℚ) < 2 ^ exponent := by positivity
  obtain ⟨low, high, even⟩ := nearest
  rw [le_div_iff₀ unit] at low above
  rw [div_le_iff₀ unit] at high
  rw [div_eq_iff unit.ne', div_eq_iff unit.ne'] at even
  refine ⟨aligned, ?_, by rw [amount]; linarith, ?_⟩
  · rw [amount, gapBelow]
    split_ifs with power
    · have := above power.1 power.2
      push_cast
      linarith
    · push_cast
      linarith
  · rw [amount, gapBelow]
    split_ifs with power
    · intro _
      rw [power.1]
      rfl
    · push_cast
      rintro (h | h)
      · exact even (.inl (by linarith))
      · exact even (.inr (by linarith))

/-- A rational that is rounded up across a power of two. -/
theorem IsNearestWhole.roundsTo_power {exact : ℚ} {exponent : Int}
    (nearest : IsNearestWhole (exact / 2 ^ exponent) (2 * leadingBit)) (least : -1074 ≤ exponent)
    (below : exact / 2 ^ exponent < (2 * leadingBit : Nat)) :
    RoundsTo exact leadingBit (exponent + 1) := by
  have whole : (2 : ℚ) ^ (exponent + 1) = 2 * 2 ^ exponent := by
    rw [zpow_add_one₀ two_ne_zero, mul_comm]
  have half : (2 : ℚ) ^ exponent = 2 * 2 ^ (exponent - 1) := (RoundsTo.half_unit exponent).1
  have shift : exponent + 1 - 2 = exponent - 1 := by ring
  have same : exponent + 1 - 1 = exponent := by ring
  have unit : (0 : ℚ) < 2 ^ exponent := by positivity
  have low := nearest.low
  rw [le_div_iff₀ unit] at low
  rw [div_lt_iff₀ unit] at below
  have gap : gapBelow leadingBit (exponent + 1) = 1 := if_pos ⟨rfl, by omega⟩
  refine ⟨⟨by decide, by omega, .inl le_rfl⟩, ?_, ?_, fun _ => rfl⟩
  · rw [amount, gap, shift, whole]
    push_cast at low ⊢
    linarith
  · rw [amount, same, whole]
    push_cast at below
    linarith

/-- Core shifts, rounds and shifts again; nothing is left for a zero. -/
theorem ofUnpacked_roundWithAccuracy (sign : Sign) {mantissa rounded : Nat}
    {exponent target power : Int} {accuracy : Accuracy} {extended final : ExtendedMantissa}
    (first : shiftToTargetExponent Format.binary64 mantissa exponent accuracy = (extended, target))
    (nearest : extended.roundedMantissa = rounded)
    (second : shiftToTargetExponent Format.binary64 rounded target .exact = (final, power)) :
    Binary.ofUnpacked (roundWithAccuracy Format.binary64 sign mantissa exponent accuracy) =
      .finite (isMinus sign) final.mantissa (if final.mantissa = 0 then -1074 else power) := by
  subst nearest
  simp only [roundWithAccuracy, first, second]
  split_ifs with zero
  · rw [Binary.ofUnpacked, zero]
  · rfl

/-- A rounded mantissa that has not become too long stays as it is. -/
theorem shiftToTargetExponent_rounded {rounded : Nat} {target : Int}
    (fits : rounded < 2 * leadingBit) (least : -1074 ≤ target) :
    shiftToTargetExponent Format.binary64 rounded target .exact =
      (⟨rounded, false, false⟩, target) := by
  have length : rounded.log2 ≤ 52 := by
    rcases rounded.eq_zero_or_pos with rfl | positive
    · decide
    · exact Nat.le_of_lt_succ ((Nat.log2_lt positive.ne').mpr fits)
  have amount : (Format.binary64.targetExponent (totalExponent rounded target) -
      target).toNat = 0 := by
    simp only [Format.targetExponent, totalExponent, Format.mantissaBits, Format.minExponent]
    norm_num
    omega
  rw [shiftToTargetExponent, shiftToExponent, amount]
  simp only [Nat.cast_zero, add_zero]
  rfl

/-- A rounded mantissa that has become one bit too long loses a zero. -/
theorem shiftToTargetExponent_carried {target : Int} (least : -1074 ≤ target) :
    shiftToTargetExponent Format.binary64 (2 * leadingBit) target .exact =
      (⟨leadingBit, false, false⟩, target + 1) := by
  have length : (2 * leadingBit).log2 = 53 := by decide
  have amount : (Format.binary64.targetExponent (totalExponent (2 * leadingBit) target) -
      target).toNat = 1 := by
    simp only [Format.targetExponent, totalExponent, length, Format.mantissaBits,
      Format.minExponent]
    norm_num
    omega
  have halved := shiftRight_exact leadingBit 1
  rw [shiftToTargetExponent, shiftToExponent, amount, ExtendedMantissa.ofMantissaAndAccuracy,
    ← halved, pow_one, mul_comm]
  rfl

/-- What core has rounded is the magnitude that the exact value rounds to. -/
theorem roundWithAccuracy_spec (sign : Sign) {mantissa : Nat} {exponent : Int}
    {accuracy : Accuracy} {exact : ℚ}
    (represents : Represents (.ofMantissaAndAccuracy mantissa accuracy) (exact / 2 ^ exponent))
    (fits : exponent ≤ Format.binary64.targetExponent (totalExponent mantissa exponent)) :
    ∃ rounded power,
      Binary.ofUnpacked (roundWithAccuracy Format.binary64 sign mantissa exponent accuracy) =
        .finite (isMinus sign) rounded power ∧ RoundsTo exact rounded power := by
  obtain ⟨extended, target, shifted, remembers, least, small, leading⟩ :=
    shiftToTargetExponent_spec represents fits
  have nearest := remembers.roundedMantissa
  have bounds := Represents.roundedMantissa_bounds extended
  have floor := remembers.floor
  obtain ⟨rounded, known⟩ : ∃ rounded, extended.roundedMantissa = rounded := ⟨_, rfl⟩
  rw [known] at nearest bounds
  rcases eq_or_ne rounded (2 * leadingBit) with carried | kept
  · subst carried
    have below : exact / 2 ^ target < (2 * leadingBit : Nat) := by
      refine floor.2.trans_le ?_
      exact_mod_cast small
    exact ⟨leadingBit, target + 1, ofUnpacked_roundWithAccuracy sign shifted known
      (shiftToTargetExponent_carried least), nearest.roundsTo_power least below⟩
  · have fits : rounded < 2 * leadingBit := by omega
    have aligned : IsAligned rounded target :=
      ⟨fits, least, leading.imp (fun h => h.trans bounds.1) id⟩
    have rounds : RoundsTo exact rounded target := by
      refine nearest.roundsTo aligned fun power above => ?_
      have whole : extended.mantissa = leadingBit := by
        have := leading.resolve_right above
        omega
      rw [power, ← whole]
      exact floor.1
    have parts := ofUnpacked_roundWithAccuracy sign shifted known
      (shiftToTargetExponent_rounded fits least)
    refine ⟨rounded, target, parts.trans ?_, rounds⟩
    have subnormal : rounded = 0 → target = -1074 := by
      rintro rfl
      exact aligned.leading.resolve_left (by decide)
    split_ifs with zero
    · rw [subnormal zero]
    · rfl

/-- A double is what a rational with a sign rounds to, and infinite if that is too
large. -/
def IsRounded (value : Float) (negative : Bool) (exact : ℚ) : Prop :=
  ∃ mantissa exponent, RoundsTo exact mantissa exponent ∧
    Binary.ofFloat value =
      if exponent ≤ 971 then .finite negative mantissa exponent else .infinite negative

/-- A magnitude with too large an exponent is packed as an infinity. -/
theorem ofFloat_pack_overflow (sign : Sign) {mantissa : Nat} {exponent : Int}
    (positive : 0 < mantissa) (large : 971 < exponent) :
    Binary.ofFloat (.ofModel (.pack (.finite sign mantissa exponent positive))) =
      .infinite (isMinus sign) := by
  have biased : 2 ^ 11 ≤ (exponent + (Format.binary64.exponentBias : Int) +
      ((52 : Nat) : Int)).toNat + 1 := by
    simp only [Format.exponentBias]
    norm_num
    omega
  have packed : Float.Model.pack (.finite sign mantissa exponent positive) =
      .pack (.infinity sign) := by
    simp only [Float.Model.pack, UnpackedFloat.pack, if_pos biased]
  have infinity : IsDouble (.infinity sign) := trivial
  rw [packed, ofFloat_pack infinity]
  rfl

/-- Packing what a rational rounds to gives the double that it rounds to. -/
theorem isRounded_pack {value : UnpackedFloat} {negative : Bool} {mantissa : Nat}
    {exponent : Int} {exact : ℚ}
    (parts : Binary.ofUnpacked value = .finite negative mantissa exponent)
    (rounds : RoundsTo exact mantissa exponent) :
    IsRounded (.ofModel (.pack value)) negative exact := by
  refine ⟨mantissa, exponent, rounds, ?_⟩
  obtain ⟨sign, rfl, rfl, rfl, rfl⟩ | ⟨sign, positive, rfl, rfl⟩ := Binary.zero_or_finite parts
  · have zero : IsDouble (.zero sign) := trivial
    exact ofFloat_pack zero
  · split_ifs with greatest
    · have double : IsDouble (.finite sign mantissa exponent positive) :=
        ⟨rounds.aligned.small, rounds.aligned.least, greatest, rounds.aligned.leading⟩
      exact ofFloat_pack double
    · exact ofFloat_pack_overflow sign positive (by omega)

/-- Nothing rounds to nothing. -/
theorem roundsTo_zero : RoundsTo 0 0 (-1074) := by
  have aligned : IsAligned 0 (-1074) := ⟨by decide, le_rfl, .inr rfl⟩
  have itself := RoundsTo.of_amount aligned
  rwa [amount_zero] at itself

/-- Signs multiply. -/
theorem isMinus_mul (sign other : Sign) :
    isMinus (sign * other) = (isMinus sign != isMinus other) := by
  cases sign <;> cases other <;> rfl

/-- Signs divide as they multiply. -/
theorem isMinus_div (sign other : Sign) :
    isMinus (sign / other) = (isMinus sign != isMinus other) := by
  cases sign <;> cases other <;> rfl

/-- What has the leading bit loses no bit that a double can hold when it is rounded. -/
theorem le_targetExponent {mantissa : Nat} {exponent : Int}
    (enough : leadingBit ≤ mantissa ∨ exponent ≤ -1074) :
    exponent ≤ Format.binary64.targetExponent (totalExponent mantissa exponent) := by
  change exponent ≤ max ((mantissa.log2 : Int) + 1 + exponent - 53) (-1074)
  rcases enough with long | small
  · have nonzero : mantissa ≠ 0 := (lt_of_lt_of_le (by decide) long).ne'
    have length : 52 ≤ mantissa.log2 := (Nat.le_log2 nonzero).mpr long
    exact le_max_of_le_left (by omega)
  · exact le_max_of_le_right small

/-- A mantissa with zeros behind it has as many bits more. -/
theorem two_pow_log2_add_le {mantissa : Nat} (positive : 0 < mantissa) (count : Nat) :
    2 ^ (mantissa.log2 + count) ≤ mantissa * 2 ^ count := by
  rw [pow_add]
  exact Nat.mul_le_mul_right _ (Nat.log2_self_le positive.ne')

/-- An exact product with enough bits is rounded correctly. -/
theorem mul_finite_spec (sign other : Sign) {mantissa factor : Nat} {exponent power : Int}
    (positive : 0 < mantissa) (positive_factor : 0 < factor)
    (fits : exponent + power ≤
      Format.binary64.targetExponent (totalExponent (mantissa * factor) (exponent + power))) :
    ∃ rounded shifted,
      Binary.ofUnpacked (UnpackedFloat.mul Format.binary64 (.finite sign mantissa exponent positive)
          (.finite other factor power positive_factor)) =
        .finite (isMinus sign != isMinus other) rounded shifted ∧
      RoundsTo (amount mantissa exponent * amount factor power) rounded shifted := by
  have product : amount mantissa exponent * amount factor power / 2 ^ (exponent + power) =
      (mantissa * factor : Nat) := by
    have unit : (2 : ℚ) ^ exponent * 2 ^ power ≠ 0 := by positivity
    rw [zpow_add₀ two_ne_zero, div_eq_iff unit]
    simp only [amount]
    push_cast
    ring
  have represents := represents_exact (mantissa * factor)
  rw [← product] at represents
  rw [← isMinus_mul]
  exact roundWithAccuracy_spec (sign * other) represents fits

/-- The product of two mantissas has enough bits. -/
theorem IsAligned.mul_fits {mantissa factor : Nat} {exponent power : Int}
    (aligned : IsAligned mantissa exponent) (other : IsAligned factor power)
    (positive : 0 < mantissa) (positive_factor : 0 < factor) :
    exponent + power ≤
      Format.binary64.targetExponent (totalExponent (mantissa * factor) (exponent + power)) := by
  refine le_targetExponent ?_
  rcases aligned.leading with leading | rfl
  · exact .inl (leading.trans (Nat.le_mul_of_pos_right _ positive_factor))
  · rcases other.leading with leading | rfl
    · exact .inl (leading.trans (Nat.le_mul_of_pos_left _ positive))
    · exact .inr (by decide)

/-- A quotient of enough bits has the leading bit. -/
theorem leadingBit_le_quotient {mantissa divisor count : Nat} (positive : 0 < mantissa)
    (positive_divisor : 0 < divisor) (enough : divisor.log2 + 53 ≤ mantissa.log2 + count) :
    leadingBit ≤ mantissa * 2 ^ count / divisor := by
  rw [Nat.le_div_iff_mul_le positive_divisor]
  calc 2 ^ 52 * divisor ≤ 2 ^ 52 * 2 ^ (divisor.log2 + 1) :=
        Nat.mul_le_mul_left _ Nat.lt_log2_self.le
    _ = 2 ^ (divisor.log2 + 53) := by rw [← pow_add]; congr 1; ring
    _ ≤ 2 ^ (mantissa.log2 + count) := Nat.pow_le_pow_right two_pos enough
    _ ≤ mantissa * 2 ^ count := two_pow_log2_add_le positive count

/-- A quotient is computed to enough bits and rounded correctly. -/
theorem div_finite_spec (sign other : Sign) {mantissa divisor : Nat} {exponent power : Int}
    (positive : 0 < mantissa) (positive_divisor : 0 < divisor) :
    ∃ rounded shifted,
      Binary.ofUnpacked (UnpackedFloat.div Format.binary64 (.finite sign mantissa exponent positive)
          (.finite other divisor power positive_divisor)) =
        .finite (isMinus sign != isMinus other) rounded shifted ∧
      RoundsTo (amount mantissa exponent / amount divisor power) rounded shifted := by
  rw [← isMinus_div]
  simp only [UnpackedFloat.div, divCore]
  have wanted : Format.binary64.targetExponent
      (totalExponent mantissa exponent - totalExponent divisor power) =
        max ((mantissa.log2 : Int) + 1 + exponent - (divisor.log2 + 1 + power) - 53) (-1074) := rfl
  rw [wanted]
  obtain ⟨target, known⟩ : ∃ target, min (exponent - power)
      (max ((mantissa.log2 : Int) + 1 + exponent - (divisor.log2 + 1 + power) - 53) (-1074)) =
        target := ⟨_, rfl⟩
  rw [known]
  obtain ⟨count, reached⟩ := Int.le.dest (known ▸ min_le_left _ _ : target ≤ exponent - power)
  have amount_shift : (exponent - power - target).toNat = count := by omega
  rw [amount_shift, Nat.shiftLeft_eq]
  have exactly : amount mantissa exponent / amount divisor power / 2 ^ target =
      ((mantissa * 2 ^ count : Nat) / divisor : ℚ) := by
    have unit : (2 : ℚ) ^ power ≠ 0 := by positivity
    have unit_target : (2 : ℚ) ^ target ≠ 0 := by positivity
    have nonzero : (divisor : ℚ) ≠ 0 := by exact_mod_cast positive_divisor.ne'
    have split : (2 : ℚ) ^ exponent = 2 ^ count * 2 ^ target * 2 ^ power := by
      have total : exponent = target + count + power := by omega
      rw [total, zpow_add₀ two_ne_zero, two_zpow_add_natCast]
      push_cast
      ring
    rw [amount, amount, split]
    push_cast
    field_simp
  have represents := represents_quotient (mantissa * 2 ^ count) positive_divisor
  rw [← exactly] at represents
  refine roundWithAccuracy_spec (sign / other) represents (le_targetExponent ?_)
  rcases le_or_gt target (-1074) with small | large
  · exact .inr small
  · exact .inl (leadingBit_le_quotient positive positive_divisor (by omega))

section Operations

variable {left right : Float} {minus minus' : Bool} {mantissa mantissa' : Nat}
  {exponent exponent' : Int}

/-- A product of finite doubles is rounded correctly. -/
theorem isRounded_mul (first : Binary.ofFloat left = .finite minus mantissa exponent)
    (second : Binary.ofFloat right = .finite minus' mantissa' exponent') :
    IsRounded (left * right) (minus != minus')
      (amount mantissa exponent * amount mantissa' exponent') := by
  have aligned := (isCanonical_of_ofFloat first).isAligned
  have aligned' := (isCanonical_of_ofFloat second).isAligned
  rw [ofFloat_eq] at first second
  change IsRounded (.ofModel (.pack
    (UnpackedFloat.mul Format.binary64 left.toModel.unpack right.toModel.unpack))) _ _
  obtain ⟨sign, one, rfl, rfl, rfl⟩ | ⟨sign, positive, one, rfl⟩ := Binary.zero_or_finite first
  · rw [one, amount_zero, zero_mul]
    obtain ⟨other, two, rfl, -⟩ | ⟨other, positive', two, rfl⟩ := Binary.zero_or_finite second
    all_goals
      rw [two, ← isMinus_mul]
      exact isRounded_pack rfl roundsTo_zero
  · rw [one]
    obtain ⟨other, two, rfl, rfl, rfl⟩ | ⟨other, positive', two, rfl⟩ :=
      Binary.zero_or_finite second
    · rw [two, amount_zero, mul_zero, ← isMinus_mul]
      exact isRounded_pack rfl roundsTo_zero
    · rw [two]
      obtain ⟨_, _, parts, rounds⟩ := mul_finite_spec sign other positive positive'
        (aligned.mul_fits aligned' positive positive')
      exact isRounded_pack parts rounds

/-- A quotient of finite doubles is rounded correctly. -/
theorem isRounded_div (first : Binary.ofFloat left = .finite minus mantissa exponent)
    (second : Binary.ofFloat right = .finite minus' mantissa' exponent') (nonzero : mantissa' ≠ 0) :
    IsRounded (left / right) (minus != minus')
      (amount mantissa exponent / amount mantissa' exponent') := by
  rw [ofFloat_eq] at first second
  change IsRounded (.ofModel (.pack
    (UnpackedFloat.div Format.binary64 left.toModel.unpack right.toModel.unpack))) _ _
  obtain ⟨other, two, rfl, zero, -⟩ | ⟨other, positive', two, rfl⟩ :=
    Binary.zero_or_finite second
  · exact absurd zero nonzero
  · rw [two]
    obtain ⟨sign, one, rfl, rfl, rfl⟩ | ⟨sign, positive, one, rfl⟩ := Binary.zero_or_finite first
    · rw [one, amount_zero, zero_div, ← isMinus_div]
      exact isRounded_pack rfl roundsTo_zero
    · rw [one]
      obtain ⟨_, _, parts, rounds⟩ := div_finite_spec sign other positive positive'
      exact isRounded_pack parts rounds

end Operations

end LaserCut.Decimal
