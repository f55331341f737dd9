/-
# Sums and differences

Core adds two doubles exactly, at the smaller of their exponents, and rounds once.  Counted
in least positive doubles the exact sum is an integer, and what it is rounded to is above no
double that is not below that integer, and below none that is not above it.  So a number
that is not negative moves a sum up or leaves it, however large the terms are.
-/

import Mathlib
import LaserCut.Proofs.Decimal.Arithmetic
import LaserCut.Proofs.Decimal.Order

namespace LaserCut.Decimal

open Float.Model (UnpackedFloat Format totalExponent)
open Float.Model.UnpackedFloat

/-- Core rounds a magnitude to the nearest one that has its leading bit in place. -/
theorem round_spec (sign : Sign) {mantissa : Nat} (positive : 0 < mantissa) (exponent : Int) :
    ∃ rounded power,
      Binary.ofUnpacked (UnpackedFloat.round Format.binary64 sign mantissa exponent) =
        .finite (isMinus sign) rounded power ∧
      RoundsTo (amount mantissa exponent) rounded power := by
  obtain ⟨target, known⟩ : ∃ target,
      Format.binary64.targetExponent (totalExponent mantissa exponent) = target := ⟨_, rfl⟩
  -- a mantissa that is too short gets zeros at its end, which change nothing
  obtain ⟨count, zeros⟩ : ∃ count, (exponent - target).toNat = count := ⟨_, rfl⟩
  have same : amount mantissa exponent / 2 ^ (exponent - count) = (mantissa * 2 ^ count : Nat) := by
    have unit : (2 : ℚ) ^ (exponent - count) ≠ 0 := by positivity
    have longer := amount_shifted mantissa (exponent - count) count
    rw [sub_add_cancel] at longer
    rw [longer, amount, mul_div_cancel_right₀ _ unit]
  have represents := represents_exact (mantissa * 2 ^ count)
  rw [← same] at represents
  have fits : exponent - count ≤ Format.binary64.targetExponent
      (totalExponent (mantissa * 2 ^ count) (exponent - count)) := by
    rw [totalExponent_shifted positive, known]
    omega
  simp only [UnpackedFloat.round, decreaseExponent, known, zeros, Nat.shiftLeft_eq]
  exact roundWithAccuracy_spec sign represents fits

/-- A double is what a count of least positive doubles rounds to. -/
def IsRoundedCount (value : Float) (count : Int) : Prop :=
  ∃ negative, (if negative then count ≤ 0 else 0 ≤ count) ∧
    IsRounded value negative (count.natAbs * 2 ^ (-1074 : Int))

/-- A magnitude with a sign counts as much with the sign. -/
theorem natAbs_signedInt_mul (negative : Bool) (mantissa : Nat) {exponent : Int}
    (least : -1074 ≤ exponent) :
    ((signedInt negative (unitsOf mantissa exponent)).natAbs : ℚ) * 2 ^ (-1074 : Int) =
      amount mantissa exponent := by
  rw [natAbs_signedInt, amount_eq_units least]

/-- A count with a sign is on the side of the sign. -/
theorem signedInt_side (negative : Bool) (count : Nat) :
    if negative then signedInt negative count ≤ 0 else 0 ≤ signedInt negative count := by
  cases negative <;> simp [signedInt]

/-- What core has rounded from a magnitude with a sign. -/
theorem isRoundedCount_pack {value : UnpackedFloat} {negative : Bool} {mantissa rounded : Nat}
    {exponent power : Int} (least : -1074 ≤ exponent)
    (parts : Binary.ofUnpacked value = .finite negative rounded power)
    (rounds : RoundsTo (amount mantissa exponent) rounded power) :
    IsRoundedCount (.ofModel (.pack value)) (signedInt negative (unitsOf mantissa exponent)) := by
  refine ⟨negative, signedInt_side .., ?_⟩
  rw [natAbs_signedInt_mul negative mantissa least]
  exact isRounded_pack parts rounds

/-- What core packs without rounding. -/
theorem isRoundedCount_of_isDouble {value : UnpackedFloat} (double : IsDouble value)
    (finite : value.isFinite) :
    IsRoundedCount (.ofModel (.pack value)) (Binary.ofUnpacked value).units := by
  cases value with
  | notANumber => cases finite
  | infinity sign => cases finite
  | zero sign =>
      have rounds := roundsTo_zero
      rw [← amount_zero (-1074)] at rounds
      exact isRoundedCount_pack le_rfl rfl rounds
  | finite sign mantissa exponent positive =>
      have canonical : IsCanonical mantissa exponent := double
      exact isRoundedCount_pack canonical.least rfl (.of_amount canonical.isAligned)

/-- An integer is a magnitude with a sign. -/
theorem signedInt_natAbs (number : Int) :
    signedInt (decide (number < 0)) number.natAbs = number := by
  by_cases below : number < 0
  · rw [decide_eq_true below, signedInt, if_pos rfl]
    omega
  · rw [decide_eq_false below, signedInt, if_neg Bool.false_ne_true]
    omega

/-- Core rounds a signed mantissa to a double. -/
theorem isRoundedCount_normalize (mantissa : Int) {exponent : Int} (least : -1074 ≤ exponent) :
    IsRoundedCount (.ofModel (.pack (normalize Format.binary64 mantissa exponent .positive)))
      (mantissa * 2 ^ (exponent + 1074).toNat) := by
  have counted (sign : Sign) (positive : 0 < mantissa.natAbs) :
      IsRoundedCount (.ofModel (.pack (round Format.binary64 sign mantissa.natAbs exponent)))
        (signedInt (isMinus sign) mantissa.natAbs * 2 ^ (exponent + 1074).toNat) := by
    obtain ⟨_, _, parts, rounds⟩ := round_spec sign positive exponent
    have rounded := isRoundedCount_pack least parts rounds
    rw [unitsOf, signedInt_mul] at rounded
    exact_mod_cast rounded
  have split := signedInt_natAbs mantissa
  rcases lt_trichotomy mantissa 0 with below | rfl | above
  · have magnitude : (-mantissa).toNat = mantissa.natAbs := by omega
    have rounded := counted .negative (by omega)
    rw [decide_eq_true below] at split
    rw [isMinus, split] at rounded
    rwa [UnpackedFloat.normalize, compare_lt_iff_lt.mpr below, magnitude]
  · rw [zero_mul]
    exact @isRoundedCount_of_isDouble (.zero .positive) trivial rfl
  · have magnitude : mantissa.toNat = mantissa.natAbs := by omega
    have rounded := counted .positive (by omega)
    rw [decide_eq_false above.not_gt] at split
    rw [isMinus, split] at rounded
    rwa [UnpackedFloat.normalize, compare_gt_iff_gt.mpr above, magnitude]

/-- A mantissa at a smaller exponent counts the same. -/
theorem apply_decreaseExponent (sign : Sign) (mantissa : Nat) {exponent target : Int}
    (least : -1074 ≤ target) (lower : target ≤ exponent) :
    sign.apply (decreaseExponent mantissa exponent target).1 * 2 ^ (target + 1074).toNat =
      (Binary.finite (isMinus sign) mantissa exponent).units := by
  have length : (exponent + 1074).toNat = (exponent - target).toNat + (target + 1074).toNat := by
    omega
  have signed (magnitude : Nat) : sign.apply magnitude = signedInt (isMinus sign) magnitude := by
    cases sign <;> rfl
  rw [decreaseExponent, Nat.shiftLeft_eq, signed, Binary.units, unitsOf, length, pow_add,
    ← mul_assoc, signedInt_mul _ (mantissa * _)]
  norm_cast

section Unpacked

variable {first second : UnpackedFloat}

/-- A sum of finite doubles is what the sum of their counts rounds to. -/
theorem isRoundedCount_unpacked_add (double : IsDouble first) (double' : IsDouble second)
    (finite : first.isFinite) (other : second.isFinite) :
    IsRoundedCount (.ofModel (.pack (UnpackedFloat.add Format.binary64 first second)))
      ((Binary.ofUnpacked first).units + (Binary.ofUnpacked second).units) := by
  have nothing (sign : Sign) : (Binary.ofUnpacked (.zero sign)).units = 0 := by
    cases sign <;> simp [Binary.ofUnpacked, Binary.units, signedInt, unitsOf]
  cases first with
  | notANumber => cases finite
  | infinity sign => cases finite
  | zero sign =>
      rw [nothing, zero_add]
      cases second with
      | notANumber => cases other
      | infinity sign' => cases other
      | zero sign' =>
          have kept : UnpackedFloat.add Format.binary64 (.zero sign) (.zero sign') =
              .zero (if sign == sign' then sign else .positive) := by
            cases sign <;> cases sign' <;> rfl
          rw [kept, nothing, ← nothing (if sign == sign' then sign else .positive)]
          exact isRoundedCount_of_isDouble trivial rfl
      | finite sign' => exact isRoundedCount_of_isDouble double' rfl
  | finite sign mantissa exponent positive =>
      cases second with
      | notANumber => cases other
      | infinity sign' => cases other
      | zero sign' =>
          rw [nothing, add_zero]
          exact isRoundedCount_of_isDouble double rfl
      | finite sign' mantissa' exponent' positive' =>
          have least : -1074 ≤ min exponent exponent' := le_min double.least double'.least
          rw [Binary.ofUnpacked, Binary.ofUnpacked,
            ← apply_decreaseExponent sign mantissa least (min_le_left _ _),
            ← apply_decreaseExponent sign' mantissa' least (min_le_right _ _), ← add_mul]
          exact isRoundedCount_normalize _ least

/-- A double that core packs is finite if it was so before. -/
theorem isFinite_pack {value : UnpackedFloat} (double : IsDouble value) :
    (Float.ofModel (.pack value)).isFinite = value.isFinite := by
  rw [Bool.eq_iff_iff, isFinite_iff, ofFloat_pack double]
  cases value <;> simp [UnpackedFloat.isFinite, Binary.ofUnpacked]

/-- The terms of a finite sum are finite. -/
theorem isFinite_of_unpacked_add
    (finite : (Float.ofModel (.pack (UnpackedFloat.add Format.binary64 first second))).isFinite) :
    first.isFinite = true ∧ second.isFinite = true := by
  have nan : ¬ (Float.ofModel (.pack .notANumber)).isFinite := by
    rw [@isFinite_pack .notANumber trivial]
    exact nofun
  have infinite (sign : Sign) : ¬ (Float.ofModel (.pack (.infinity sign))).isFinite := by
    rw [@isFinite_pack (.infinity sign) trivial]
    exact nofun
  cases first with
  | notANumber => exact absurd finite nan
  | infinity sign =>
      cases second with
      | notANumber => exact absurd finite nan
      | infinity sign' =>
          rw [UnpackedFloat.add] at finite
          split_ifs at finite
          · exact absurd finite (infinite sign)
          · exact absurd finite nan
      | zero sign' => exact absurd finite (infinite sign)
      | finite sign' => exact absurd finite (infinite sign)
  | zero sign =>
      cases second with
      | notANumber => exact absurd finite nan
      | infinity sign' => exact absurd finite (infinite sign')
      | zero sign' => exact ⟨rfl, rfl⟩
      | finite sign' => exact ⟨rfl, rfl⟩
  | finite sign =>
      cases second with
      | notANumber => exact absurd finite nan
      | infinity sign' => exact absurd finite (infinite sign')
      | zero sign' => exact ⟨rfl, rfl⟩
      | finite sign' => exact ⟨rfl, rfl⟩

/-- A difference is the sum with the negated term. -/
theorem unpacked_sub_eq (format : Format) (first second : UnpackedFloat) :
    UnpackedFloat.sub format first second = UnpackedFloat.add format first second.neg := by
  cases first with
  | notANumber => cases second <;> rfl
  | infinity sign => cases second <;> rfl
  | zero sign => cases second <;> rfl
  | finite sign mantissa exponent positive =>
      cases second with
      | finite sign' => cases sign' <;> simp [UnpackedFloat.sub, UnpackedFloat.add,
          UnpackedFloat.neg, Sign.apply, sub_eq_add_neg]
      | _ => rfl

end Unpacked

section Operations

variable {left right value : Float}

/-- A difference of doubles is the sum with the negated one. -/
protected theorem sub_eq_add_neg (left right : Float) : left - right = left + -right := by
  have parts : (-right).toModel.unpack = right.toModel.unpack.neg := by
    apply ofUnpacked_injective
    rw [← ofFloat_eq, ofFloat_neg, ofFloat_eq]
    cases right.toModel.unpack with
    | notANumber => rfl
    | infinity sign => cases sign <;> rfl
    | zero sign => cases sign <;> rfl
    | finite sign => cases sign <;> rfl
  change Float.ofModel (.pack
    (UnpackedFloat.sub Format.binary64 left.toModel.unpack right.toModel.unpack)) =
    .ofModel (.pack (UnpackedFloat.add Format.binary64 left.toModel.unpack (-right).toModel.unpack))
  rw [unpacked_sub_eq, parts]

/-- The terms of a finite sum are finite, and it is what the sum of their counts rounds to. -/
theorem isRoundedCount_add (finite : (left + right).isFinite) :
    (left.isFinite ∧ right.isFinite) ∧ IsRoundedCount (left + right)
      ((Binary.ofFloat left).units + (Binary.ofFloat right).units) := by
  have terms := isFinite_of_unpacked_add finite
  rw [ofFloat_eq, ofFloat_eq]
  exact ⟨terms, isRoundedCount_unpacked_add (isDouble_unpack left) (isDouble_unpack right)
    terms.1 terms.2⟩

/-- Counted in least positive doubles, no magnitude is nearer than the rounded one. -/
theorem RoundsTo.nearest_units {count mantissa mantissa' : Nat} {exponent exponent' : Int}
    (rounds : RoundsTo (count * 2 ^ (-1074 : Int)) mantissa exponent)
    (aligned : IsAligned mantissa' exponent') :
    ((unitsOf mantissa exponent : Int) - count).natAbs ≤
      ((unitsOf mantissa' exponent' : Int) - count).natAbs := by
  have unit : (0 : ℚ) < 2 ^ (-1074 : Int) := by positivity
  have near := rounds.nearest aligned
  rw [amount_eq_units rounds.aligned.least, amount_eq_units aligned.least, ← sub_mul, ← sub_mul,
    abs_mul, abs_mul, mul_le_mul_iff_left₀ (abs_pos.mpr unit.ne')] at near
  zify
  exact_mod_cast near

/-- No double lies between a count and what it rounds to. -/
theorem IsRoundedCount.units_mono {count : Int} (rounded : IsRoundedCount value count)
    (finite : value.isFinite) (other : right.isFinite) :
    (count ≤ (Binary.ofFloat right).units →
      (Binary.ofFloat value).units ≤ (Binary.ofFloat right).units) ∧
    ((Binary.ofFloat right).units ≤ count →
      (Binary.ofFloat right).units ≤ (Binary.ofFloat value).units) := by
  obtain ⟨negative, side, mantissa, exponent, rounds, parts⟩ := rounded
  obtain ⟨minus, mantissa', exponent', parts'⟩ := (isFinite_iff right).mp other
  have fits : exponent ≤ 971 := by
    by_contra large
    obtain ⟨_, _, _, known⟩ := (isFinite_iff value).mp finite
    rw [if_neg large, known] at parts
    cases parts
  have near := rounds.nearest_units (isCanonical_of_ofFloat parts').isAligned
  rw [parts, if_pos fits, parts', Binary.units, Binary.units]
  cases negative <;> cases minus <;> simp only [signedInt, if_true, Bool.false_eq_true, if_false]
    at side ⊢ <;> omega

/-- A term that is not negative does not make a sum smaller. -/
theorem le_add (finite : (left + right).isFinite) (nonneg : 0 ≤ right) : left ≤ left + right := by
  obtain ⟨terms, rounded⟩ := isRoundedCount_add finite
  have side := (le_iff.mp nonneg).2.2
  rw [show (Binary.ofFloat 0).units = 0 by decide] at side
  exact le_iff.mpr ⟨(units_lt_of_isFinite terms.1).1, (units_lt_of_isFinite finite).1,
    (rounded.units_mono finite terms.1).2 (by omega)⟩

/-- What is taken away does not make a difference larger. -/
protected theorem sub_le (finite : (left - right).isFinite) (nonneg : 0 ≤ right) :
    left - right ≤ left := by
  rw [Decimal.sub_eq_add_neg] at finite ⊢
  obtain ⟨terms, rounded⟩ := isRoundedCount_add finite
  have side := (le_iff.mp nonneg).2.2
  rw [show (Binary.ofFloat 0).units = 0 by decide] at side
  rw [ofFloat_neg, units_negate] at rounded
  exact le_iff.mpr ⟨(units_lt_of_isFinite finite).1, (units_lt_of_isFinite terms.1).1,
    (rounded.units_mono finite terms.1).1 (by omega)⟩

end Operations

end LaserCut.Decimal
