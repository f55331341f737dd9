/-
# Doubles and their exact values

Core describes doubles by unpacked values, on which its operations are
defined.  `Binary` takes the bits apart in arithmetic; here the two are shown
to agree, so that whatever core computes can be stated on a mantissa and an
exponent.

Every finite double is a whole multiple of the least positive one.  Counted in
these units, doubles are compared as integers; the infinities count as one more
power of two than any finite double reaches.
-/

import Mathlib
import LaserCut.Decimal.Binary

namespace LaserCut.Decimal

open Float.Model (UnpackedFloat Format)
open Float.Model.UnpackedFloat (Sign unpackMantissa unpackExponent unpackSign)

/-- Whether a sign is a minus. -/
def isMinus : Sign → Bool
  | .negative => true
  | .positive => false

namespace Binary

/-- What an unpacked value of core denotes. -/
def ofUnpacked : UnpackedFloat → Binary
  | .notANumber => .nan
  | .infinity sign => .infinite (isMinus sign)
  | .zero sign => .finite (isMinus sign) 0 (-1074)
  | .finite sign mantissa exponent _ => .finite (isMinus sign) mantissa exponent

/-- What denotes a finite double is a zero or has the parts of that double. -/
theorem zero_or_finite {value : UnpackedFloat} {negative : Bool} {mantissa : Nat} {exponent : Int}
    (parts : ofUnpacked value = .finite negative mantissa exponent) :
    (∃ sign, value = .zero sign ∧ negative = isMinus sign ∧ mantissa = 0 ∧ exponent = -1074) ∨
      ∃ sign positive, value = .finite sign mantissa exponent positive ∧
        negative = isMinus sign := by
  cases value with
  | notANumber => cases parts
  | infinity sign => cases parts
  | zero sign =>
      obtain ⟨rfl, rfl, rfl⟩ := Binary.finite.inj parts
      exact .inl ⟨sign, rfl, rfl, rfl, rfl⟩
  | finite sign mantissa exponent positive =>
      obtain ⟨rfl, rfl, rfl⟩ := Binary.finite.inj parts
      exact .inr ⟨sign, positive, rfl, rfl⟩

end Binary

section Fields

variable (bits : BitVec Format.binary64.numBits)

/-- The mantissa field is the remainder of the leading bit. -/
theorem toNat_unpackMantissa : (unpackMantissa bits).toNat = bits.toNat % leadingBit := by
  simp [unpackMantissa, leadingBit]

/-- The exponent field stands above the mantissa field. -/
theorem toNat_unpackExponent : (unpackExponent bits).toNat = bits.toNat / leadingBit % 2048 := by
  simp [unpackExponent, leadingBit, Nat.shiftRight_eq_div_pow]

/-- The sign is the topmost bit. -/
theorem toNat_unpackSign : (unpackSign bits).toNat = bits.toNat / 0x8000000000000000 := by
  have topmost := bits.isLt
  simp only [unpackSign, BitVec.toNat_cast, BitVec.extractLsb_toNat, Nat.shiftRight_eq_div_pow]
  simp only [Format.numBits] at topmost
  norm_num at topmost ⊢
  omega

/-- The sign of core is the sign bit. -/
theorem isMinus_ofBitVec :
    isMinus (Sign.ofBitVec (unpackSign bits)) = (bits.toNat / 0x8000000000000000 == 1) := by
  have known := toNat_unpackSign bits
  have small := (unpackSign bits).isLt
  rw [known] at small
  simp only [Sign.ofBitVec]
  split_ifs with plus
  · rw [plus] at known
    simp only [isMinus, ← known]
    rfl
  · have nonzero : (unpackSign bits).toNat ≠ 0 := fun h => plus (BitVec.eq_of_toNat_eq h)
    rw [known] at nonzero
    have one : bits.toNat / 0x8000000000000000 = 1 := by omega
    simp [isMinus, one]

/-- The exponent field of infinities and NaNs. -/
theorem unpackExponent_eq_full :
    unpackExponent bits = -1#_ ↔ bits.toNat / leadingBit % 2048 = 2047 := by
  rw [← toNat_unpackExponent]
  exact ⟨fun full => by rw [full]; rfl, fun full => BitVec.eq_of_toNat_eq full⟩

/-- The exponent field of zeros and subnormal numbers. -/
theorem unpackExponent_eq_zero :
    unpackExponent bits = 0#_ ↔ bits.toNat / leadingBit % 2048 = 0 := by
  rw [← toNat_unpackExponent]
  exact ⟨fun zero => by rw [zero]; rfl, fun zero => BitVec.eq_of_toNat_eq zero⟩

/-- The mantissa field of zeros and infinities. -/
theorem unpackMantissa_eq_zero :
    unpackMantissa bits = 0#_ ↔ bits.toNat % leadingBit = 0 := by
  rw [← toNat_unpackMantissa]
  exact ⟨fun zero => by rw [zero]; rfl, fun zero => BitVec.eq_of_toNat_eq zero⟩

/-- A normal number has its leading bit in front of the mantissa field. -/
theorem toNat_leading_append :
    (1#1 ++ unpackMantissa bits).toNat = leadingBit + bits.toNat % leadingBit := by
  rw [BitVec.toNat_append, ← Nat.shiftLeft_add_eq_or_of_lt (BitVec.isLt _),
    toNat_unpackMantissa]
  rfl

end Fields

/-- What the bits of a double denote. -/
def Binary.ofBits (bits : Nat) : Binary :=
  let negative := bits / 0x8000000000000000 == 1
  let biased := bits / leadingBit % 2048
  let fraction := bits % leadingBit
  if biased = 2047 then if fraction = 0 then .infinite negative else .nan
  else if biased = 0 then .finite negative fraction (-1074)
  else .finite negative (leadingBit + fraction) ((biased : Int) - 1075)

/-- Core unpacks what the bits denote. -/
theorem ofUnpacked_unpack (bits : BitVec Format.binary64.numBits) :
    Binary.ofUnpacked (UnpackedFloat.unpack Format.binary64 bits) = .ofBits bits.toNat := by
  have sign := isMinus_ofBitVec bits
  unfold UnpackedFloat.unpack
  dsimp only
  split
  · next full =>
      have biased := (unpackExponent_eq_full bits).mp full
      split
      · next zero =>
          have fraction := (unpackMantissa_eq_zero bits).mp zero
          simp only [Binary.ofUnpacked, Binary.ofBits, sign, biased, fraction, if_true]
      · next nonzero =>
          have fraction := mt (unpackMantissa_eq_zero bits).mpr nonzero
          simp only [Binary.ofUnpacked, Binary.ofBits, biased, fraction, if_true, if_false]
  · next partial' =>
      have notFull := mt (unpackExponent_eq_full bits).mpr partial'
      split
      · next small =>
          have biased := (unpackExponent_eq_zero bits).mp small
          split
          · next zero =>
              have fraction := (unpackMantissa_eq_zero bits).mp zero
              simp [Binary.ofUnpacked, Binary.ofBits, sign, biased, fraction]
          · have mantissa := toNat_unpackMantissa bits
            have exponent := toNat_unpackExponent bits
            simp [Binary.ofUnpacked, Binary.ofBits, sign, biased, mantissa, exponent,
              Format.exponentBias]
      · next large =>
          have biased := mt (unpackExponent_eq_zero bits).mpr large
          have mantissa := toNat_leading_append bits
          have exponent := toNat_unpackExponent bits
          simp only [Binary.ofUnpacked, Binary.ofBits, sign, notFull, biased, if_false, mantissa,
            exponent]
          rfl

/-- Taking the bits of a double apart gives what core unpacks. -/
theorem ofFloat_eq (value : Float) :
    Binary.ofFloat value = Binary.ofUnpacked value.toModel.unpack :=
  (ofUnpacked_unpack value.toModel.toBits.toBitVec).symm

/-- The parts that a finite double can have: the mantissa fits, and it has its
leading bit unless the exponent is the least one. -/
structure IsCanonical (mantissa : Nat) (exponent : Int) : Prop where
  small : mantissa < 2 * leadingBit
  least : -1074 ≤ exponent
  greatest : exponent ≤ 971
  leading : leadingBit ≤ mantissa ∨ exponent = -1074

/-- The parts of a finite double are canonical. -/
theorem isCanonical_of_ofFloat {value : Float} {negative : Bool} {mantissa : Nat}
    {exponent : Int} (parts : Binary.ofFloat value = .finite negative mantissa exponent) :
    IsCanonical mantissa exponent := by
  have fraction : value.toBits.toNat % leadingBit < leadingBit := Nat.mod_lt _ (by decide)
  simp only [Binary.ofFloat] at parts
  split_ifs at parts with full zero small
  · obtain ⟨-, rfl, rfl⟩ := Binary.finite.inj parts
    exact ⟨by omega, le_rfl, by decide, .inr rfl⟩
  · obtain ⟨-, rfl, rfl⟩ := Binary.finite.inj parts
    exact ⟨by omega, by omega, by omega, .inl (by omega)⟩

/-- A double is a NaN as core tells it just when it denotes none. -/
theorem isNaN_iff (value : Float) : value.isNaN ↔ Binary.ofFloat value = .nan := by
  rw [ofFloat_eq, Float.isNaN, Float.Model.isNaN]
  cases value.toModel.unpack <;> simp [UnpackedFloat.isNaN, Binary.ofUnpacked]

/-- A double is finite as core tells it just when it has a mantissa. -/
theorem isFinite_iff (value : Float) : value.isFinite ↔
    ∃ negative mantissa exponent, Binary.ofFloat value = .finite negative mantissa exponent := by
  rw [ofFloat_eq, Float.isFinite, Float.Model.isFinite]
  cases value.toModel.unpack <;> simp [UnpackedFloat.isFinite, Binary.ofUnpacked]

/-- An integer with the sign of a double. -/
def signedInt (negative : Bool) (magnitude : Nat) : Int :=
  if negative then -magnitude else magnitude

/-- How many times a finite magnitude counts the least positive double. -/
def unitsOf (mantissa : Nat) (exponent : Int) : Nat :=
  mantissa * 2 ^ (exponent + 1074).toNat

/-- The count of an infinity. -/
@[irreducible] def overflowUnits : Nat :=
  2 ^ 2098

theorem overflowUnits_pos : 0 < overflowUnits := by
  unfold overflowUnits
  positivity

/-- How many times a double counts the least positive one.  An infinity counts
more than every finite one, and a NaN is not counted. -/
def Binary.units : Binary → Int
  | .nan => 0
  | .infinite negative => signedInt negative overflowUnits
  | .finite negative mantissa exponent => signedInt negative (unitsOf mantissa exponent)

namespace IsCanonical

variable {mantissa other : Nat} {exponent higher : Int}

/-- No finite double reaches the count of infinity. -/
theorem unitsOf_lt (canonical : IsCanonical mantissa exponent) :
    unitsOf mantissa exponent < overflowUnits := by
  obtain ⟨small, least, greatest, -⟩ := canonical
  have scale : 2 ^ (exponent + 1074).toNat ≤ 2 ^ 2045 := by
    gcongr
    · norm_num
    · omega
  calc mantissa * 2 ^ (exponent + 1074).toNat
      < 2 ^ 53 * 2 ^ (exponent + 1074).toNat :=
        Nat.mul_lt_mul_of_pos_right small (Nat.two_pow_pos _)
    _ ≤ 2 ^ 53 * 2 ^ 2045 := Nat.mul_le_mul_left _ scale
    _ = overflowUnits := by unfold overflowUnits; rw [← pow_add]

/-- Of two magnitudes the one with the higher exponent counts more. -/
theorem unitsOf_lt_of_exponent_lt (canonical : IsCanonical mantissa exponent)
    (above : IsCanonical other higher) (lower : exponent < higher) :
    unitsOf mantissa exponent < unitsOf other higher := by
  obtain ⟨small, least, -, -⟩ := canonical
  have leading : leadingBit ≤ other := above.leading.resolve_right (by omega)
  have scale : 2 * 2 ^ (exponent + 1074).toNat ≤ 2 ^ (higher + 1074).toNat := by
    rw [← pow_succ']
    exact Nat.pow_le_pow_right (by decide) (by omega)
  calc mantissa * 2 ^ (exponent + 1074).toNat
      < 2 * leadingBit * 2 ^ (exponent + 1074).toNat :=
        Nat.mul_lt_mul_of_pos_right small (by positivity)
    _ = leadingBit * (2 * 2 ^ (exponent + 1074).toNat) := by ring
    _ ≤ other * 2 ^ (higher + 1074).toNat := Nat.mul_le_mul leading scale

/-- Magnitudes are compared by their exponents first. -/
theorem compare_unitsOf (canonical : IsCanonical mantissa exponent)
    (other_canonical : IsCanonical other higher) :
    (compare exponent higher).then (compare mantissa other) =
      compare (unitsOf mantissa exponent) (unitsOf other higher) := by
  rcases lt_trichotomy exponent higher with lower | rfl | lower
  · have below := unitsOf_lt_of_exponent_lt canonical other_canonical lower
    rw [compare_lt_iff_lt.mpr lower, compare_lt_iff_lt.mpr below]
    rfl
  · have scale : 0 < 2 ^ (exponent + 1074).toNat := by positivity
    rw [compare_eq_iff_eq.mpr rfl, Ordering.then]
    unfold unitsOf
    rcases lt_trichotomy mantissa other with below | rfl | below
    · rw [compare_lt_iff_lt.mpr below,
        compare_lt_iff_lt.mpr (Nat.mul_lt_mul_of_pos_right below scale)]
    · rw [compare_eq_iff_eq.mpr rfl, compare_eq_iff_eq.mpr rfl]
    · rw [compare_gt_iff_gt.mpr below,
        compare_gt_iff_gt.mpr (Nat.mul_lt_mul_of_pos_right below scale)]
  · have below := unitsOf_lt_of_exponent_lt other_canonical canonical lower
    rw [compare_gt_iff_gt.mpr lower, compare_gt_iff_gt.mpr below]
    rfl

end IsCanonical

/-- What an unpacked value must be to come from a double. -/
def IsDouble : UnpackedFloat → Prop
  | .finite _ mantissa exponent _ => IsCanonical mantissa exponent
  | _ => True

/-- Core unpacks doubles to doubles. -/
theorem isDouble_unpack (value : Float) : IsDouble value.toModel.unpack := by
  have parts := ofFloat_eq value
  cases unpacked : value.toModel.unpack with
  | finite sign mantissa exponent positive =>
      rw [unpacked, Binary.ofUnpacked] at parts
      exact isCanonical_of_ofFloat parts
  | _ => trivial

/-- A smaller magnitude on the left leaves the comparison to the sign on the
right. -/
theorem compare_signedInt_of_lt {a b : Nat} (less : a < b) (left right : Bool) :
    compare (signedInt left a) (signedInt right b) = if right then .gt else .lt := by
  cases right with
  | true =>
      apply compare_gt_iff_gt.mpr
      cases left <;> simp only [signedInt, if_true, Bool.false_eq_true, if_false] <;> omega
  | false =>
      apply compare_lt_iff_lt.mpr
      cases left <;> simp only [signedInt, if_true, Bool.false_eq_true, if_false] <;> omega

/-- A greater magnitude on the left decides the comparison by its sign. -/
theorem compare_signedInt_of_gt {a b : Nat} (greater : b < a) (left right : Bool) :
    compare (signedInt left a) (signedInt right b) = if left then .lt else .gt := by
  cases left with
  | true =>
      apply compare_lt_iff_lt.mpr
      cases right <;> simp only [signedInt, if_true, Bool.false_eq_true, if_false] <;> omega
  | false =>
      apply compare_gt_iff_gt.mpr
      cases right <;> simp only [signedInt, if_true, Bool.false_eq_true, if_false] <;> omega

/-- Positive magnitudes of different signs are compared by the signs. -/
theorem compare_signedInt_of_ne {a b : Nat} (first : 0 < a) (second : 0 < b) :
    compare (signedInt true a) (signedInt false b) = .lt ∧
      compare (signedInt false a) (signedInt true b) = .gt := by
  simp only [signedInt, if_true, Bool.false_eq_true, if_false]
  exact ⟨compare_lt_iff_lt.mpr (by omega), compare_gt_iff_gt.mpr (by omega)⟩

/-- Magnitudes of one sign are compared as they are, or the other way. -/
theorem compare_signedInt_same (a b : Nat) :
    compare (signedInt false a) (signedInt false b) = compare a b ∧
      compare (signedInt true a) (signedInt true b) = (compare a b).swap := by
  simp only [signedInt, if_true, Bool.false_eq_true, if_false]
  rcases lt_trichotomy a b with h | rfl | h
  · rw [compare_lt_iff_lt.mpr h]
    exact ⟨compare_lt_iff_lt.mpr (by omega), compare_gt_iff_gt.mpr (by omega)⟩
  · simp
  · rw [compare_gt_iff_gt.mpr h]
    exact ⟨compare_gt_iff_gt.mpr (by omega), compare_lt_iff_lt.mpr (by omega)⟩

/-- Core compares numbers by their counts. -/
theorem compare_unpacked {left right : UnpackedFloat} (double : IsDouble left)
    (other : IsDouble right) (number : left ≠ .notANumber) (numeral : right ≠ .notANumber) :
    left.compare right =
      some (compare (Binary.ofUnpacked left).units (Binary.ofUnpacked right).units) := by
  have overflow := overflowUnits_pos
  have zero (exponent : Int) : unitsOf 0 exponent = 0 := Nat.zero_mul _
  have positive {mantissa : Nat} (pos : 0 < mantissa) (exponent : Int) :
      0 < unitsOf mantissa exponent := Nat.mul_pos pos (Nat.two_pow_pos _)
  cases left with
  | notANumber => exact absurd rfl number
  | infinity sign =>
      cases right with
      | notANumber => exact absurd rfl numeral
      | infinity against =>
          have apart := compare_signedInt_of_ne overflow overflow
          cases sign <;> cases against
          · exact congrArg some (compare_eq_iff_eq.mpr rfl).symm
          · exact congrArg some apart.1.symm
          · exact congrArg some apart.2.symm
          · exact congrArg some (compare_eq_iff_eq.mpr rfl).symm
      | zero against =>
          rw [Binary.ofUnpacked, Binary.ofUnpacked, Binary.units, Binary.units, zero,
            compare_signedInt_of_gt overflow]
          cases sign <;> rfl
      | finite against mantissa exponent pos =>
          rw [Binary.ofUnpacked, Binary.ofUnpacked, Binary.units, Binary.units,
            compare_signedInt_of_gt other.unitsOf_lt]
          cases sign <;> rfl
  | zero sign =>
      cases right with
      | notANumber => exact absurd rfl numeral
      | infinity against =>
          rw [Binary.ofUnpacked, Binary.ofUnpacked, Binary.units, Binary.units, zero,
            compare_signedInt_of_lt overflow]
          cases against <;> rfl
      | zero against =>
          cases sign <;> cases against <;>
            simp [UnpackedFloat.compare, Binary.ofUnpacked, Binary.units, isMinus, signedInt, zero]
      | finite against mantissa exponent pos =>
          rw [Binary.ofUnpacked, Binary.ofUnpacked, Binary.units, Binary.units, zero,
            compare_signedInt_of_lt (positive pos exponent)]
          cases against <;> rfl
  | finite sign mantissa exponent pos =>
      cases right with
      | notANumber => exact absurd rfl numeral
      | infinity against =>
          rw [Binary.ofUnpacked, Binary.ofUnpacked, Binary.units, Binary.units,
            compare_signedInt_of_lt double.unitsOf_lt]
          cases against <;> rfl
      | zero against =>
          rw [Binary.ofUnpacked, Binary.ofUnpacked, Binary.units, Binary.units, zero,
            compare_signedInt_of_gt (positive pos exponent)]
          cases sign <;> rfl
      | finite against magnitude power pos_magnitude =>
          have same := compare_signedInt_same (unitsOf mantissa exponent) (unitsOf magnitude power)
          have apart := compare_signedInt_of_ne (positive pos exponent) (positive pos_magnitude power)
          rw [← double.compare_unitsOf other] at same
          cases sign <;> cases against
          · exact congrArg some same.2.symm
          · exact congrArg some apart.1.symm
          · exact congrArg some apart.2.symm
          · exact congrArg some same.1.symm

/-- A double that is no NaN unpacks to a number. -/
theorem unpack_ne_notANumber {value : Float} (number : value.isNaN = false) :
    value.toModel.unpack ≠ .notANumber := by
  intro nan
  rw [Float.isNaN, Float.Model.isNaN, nan] at number
  exact absurd number (by decide)

/-- Doubles are ordered as their counts. -/
theorem lt_iff_units {left right : Float} (number : left.isNaN = false)
    (numeral : right.isNaN = false) :
    left < right ↔ (Binary.ofFloat left).units < (Binary.ofFloat right).units := by
  have order := compare_unpacked (isDouble_unpack left) (isDouble_unpack right)
    (unpack_ne_notANumber number) (unpack_ne_notANumber numeral)
  rw [ofFloat_eq, ofFloat_eq, ← compare_lt_iff_lt]
  change decide (left.toModel.unpack.lt right.toModel.unpack = true) = true ↔ _
  rw [decide_eq_true_iff, UnpackedFloat.lt, order]
  simp

/-- What equals a finite double is finite. -/
theorem isFinite_of_beq {left right : Float} (same : left == right) (finite : right.isFinite) :
    left.isFinite := by
  change left.toModel.unpack.beq right.toModel.unpack = true at same
  rw [Float.isFinite, Float.Model.isFinite] at finite ⊢
  rw [UnpackedFloat.beq] at same
  generalize left.toModel.unpack = first at same ⊢
  generalize right.toModel.unpack = second at same finite
  cases first with
  | zero sign => rfl
  | finite sign mantissa exponent positive => rfl
  | notANumber => cases second <;> cases same
  | infinity sign =>
      cases second with
      | notANumber => cases finite
      | infinity other => cases finite
      | zero other => cases sign <;> cases same
      | finite other mantissa exponent positive => cases sign <;> cases same

end LaserCut.Decimal
