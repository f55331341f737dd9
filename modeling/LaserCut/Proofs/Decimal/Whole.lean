/-
# Whole numbers among the doubles

Rounding keeps what a double can hold, and packing loses nothing, so a whole
number of at most 53 bits is a double, and its parts are known.
-/

import Mathlib
import LaserCut.Decimal.Reader
import LaserCut.Decimal.Rounding
import LaserCut.Proofs.Decimal.Double

namespace LaserCut.Decimal

open Float.Model (UnpackedFloat Format totalExponent)
open Float.Model.UnpackedFloat

/-- A mantissa without residual bits loses the zeros at its end and nothing
else. -/
theorem shiftRight_exact (mantissa count : Nat) :
    (⟨mantissa * 2 ^ count, false, false⟩ : ExtendedMantissa) >>> count =
      ⟨mantissa, false, false⟩ := by
  change Nat.repeat _ count _ = _
  induction count generalizing mantissa with
  | zero => simp [Nat.repeat]
  | succ count ih =>
      rw [Nat.repeat, pow_succ', ← mul_assoc, ih]
      simp [ExtendedMantissa.shiftRightOne]

/-- The exponent that core asks of a canonical magnitude is its own. -/
theorem targetExponent_of_canonical {mantissa : Nat} {exponent : Int} (positive : 0 < mantissa)
    (canonical : IsCanonical mantissa exponent) :
    Format.binary64.targetExponent (totalExponent mantissa exponent) = exponent := by
  have length : mantissa.log2 < 53 := (Nat.log2_lt (by omega)).mpr canonical.small
  have least := canonical.least
  rcases canonical.leading with leading | rfl
  · have full : 52 ≤ mantissa.log2 := (Nat.le_log2 (by omega)).mpr leading
    simp only [Format.targetExponent, totalExponent, Format.mantissaBits, Format.minExponent]
    norm_num
    omega
  · simp only [Format.targetExponent, totalExponent, Format.mantissaBits, Format.minExponent]
    norm_num
    omega

/-- Zeros at the end of a mantissa make it longer by their number. -/
theorem log2_shifted {mantissa : Nat} (positive : 0 < mantissa) (count : Nat) :
    (mantissa * 2 ^ count).log2 = mantissa.log2 + count := by
  simp only [Nat.log2_eq_log_two]
  induction count with
  | zero => simp
  | succ count ih =>
      rw [pow_succ, ← mul_assoc, Nat.log_mul_base one_lt_two (by positivity), ih]
      rfl

/-- Zeros at the end of a mantissa do not change where it starts. -/
theorem totalExponent_shifted {mantissa : Nat} (positive : 0 < mantissa) (exponent : Int)
    (count : Nat) :
    totalExponent (mantissa * 2 ^ count) (exponent - count) = totalExponent mantissa exponent := by
  simp only [totalExponent, log2_shifted positive]
  omega

/-- Shifting to the exponent that core asks for drops the zeros at the end of a
canonical mantissa. -/
theorem shiftToTargetExponent_of_canonical {mantissa : Nat} {exponent : Int}
    (positive : 0 < mantissa) (canonical : IsCanonical mantissa exponent) (count : Nat) :
    shiftToTargetExponent Format.binary64 (mantissa * 2 ^ count) (exponent - count) .exact =
      (⟨mantissa, false, false⟩, exponent) := by
  have amount : (exponent - (exponent - (count : Int))).toNat = count := by omega
  simp only [shiftToTargetExponent, shiftToExponent, totalExponent_shifted positive,
    targetExponent_of_canonical positive canonical, amount,
    ExtendedMantissa.ofMantissaAndAccuracy, shiftRight_exact]
  simp

/-- Rounding keeps a canonical magnitude, however many zeros end its mantissa. -/
theorem roundWithAccuracy_of_canonical (sign : Sign) {mantissa : Nat} {exponent : Int}
    (positive : 0 < mantissa) (canonical : IsCanonical mantissa exponent) (count : Nat) :
    roundWithAccuracy Format.binary64 sign (mantissa * 2 ^ count) (exponent - count) .exact =
      .finite sign mantissa exponent positive := by
  have first := shiftToTargetExponent_of_canonical positive canonical count
  have second := shiftToTargetExponent_of_canonical positive canonical 0
  simp only [pow_zero, mul_one, Nat.cast_zero, sub_zero] at second
  simp only [roundWithAccuracy, first, ExtendedMantissa.roundedMantissa,
    ExtendedMantissa.accuracy, Accuracy.roundToNearestEven, second, positive.ne', dite_false]

/-- Rounding keeps a canonical magnitude that was given with a shorter mantissa. -/
theorem round_of_canonical (sign : Sign) {magnitude : Nat} (positive : 0 < magnitude)
    (power : Int) (count : Nat) (canonical : IsCanonical (magnitude * 2 ^ count) (power - count)) :
    UnpackedFloat.round Format.binary64 sign magnitude power =
      .finite sign (magnitude * 2 ^ count) (power - count) (by positivity) := by
  have target := targetExponent_of_canonical (Nat.mul_pos positive (Nat.two_pow_pos count)) canonical
  rw [totalExponent_shifted positive] at target
  have amount : (power - (power - (count : Int))).toNat = count := by omega
  have kept := roundWithAccuracy_of_canonical sign
    (Nat.mul_pos positive (Nat.two_pow_pos count)) canonical 0
  simp only [pow_zero, mul_one, Nat.cast_zero, sub_zero] at kept
  simp only [UnpackedFloat.round, decreaseExponent, target, amount, Nat.shiftLeft_eq, kept]

/-- The fields of what is packed stand one above the other. -/
theorem toNat_packComponents (sign : Sign) (exponent : BitVec 11) (mantissa : BitVec 52) :
    (packComponents Format.binary64 sign exponent mantissa).toNat =
      ((isMinus sign).toNat * 2048 + exponent.toNat) * leadingBit + mantissa.toNat := by
  have field : sign.toBitVec.toNat = (isMinus sign).toNat := by cases sign <;> rfl
  simp only [packComponents, BitVec.toNat_append]
  rw [← Nat.shiftLeft_add_eq_or_of_lt mantissa.isLt, ← Nat.shiftLeft_add_eq_or_of_lt exponent.isLt,
    field, Nat.shiftLeft_eq, Nat.shiftLeft_eq]
  rfl

/-- The bits of fields that stand one above the other denote the fields. -/
theorem ofBits_fields (negative : Bool) {biased fraction : Nat} (exponent : biased < 2048)
    (mantissa : fraction < leadingBit) :
    Binary.ofBits ((negative.toNat * 2048 + biased) * leadingBit + fraction) =
      if biased = 2047 then if fraction = 0 then .infinite negative else .nan
      else if biased = 0 then .finite negative fraction (-1074)
      else .finite negative (leadingBit + fraction) ((biased : Int) - 1075) := by
  simp only [leadingBit] at mantissa
  have low : ((negative.toNat * 2048 + biased) * leadingBit + fraction) % leadingBit = fraction := by
    simp only [leadingBit]; omega
  have middle : ((negative.toNat * 2048 + biased) * leadingBit + fraction) / leadingBit % 2048 =
      biased := by
    simp only [leadingBit]; omega
  have high : (((negative.toNat * 2048 + biased) * leadingBit + fraction) / 0x8000000000000000 == 1)
      = negative := by
    cases negative <;> simp [leadingBit] <;> omega
  simp only [Binary.ofBits, low, middle, high]

/-- Packing a double loses nothing. -/
theorem ofUnpacked_unpack_pack {value : UnpackedFloat} (double : IsDouble value) :
    Binary.ofUnpacked (Float.Model.pack value).unpack = Binary.ofUnpacked value := by
  cases value with
  | infinity sign => cases sign <;> rfl
  | notANumber => rfl
  | zero sign => cases sign <;> rfl
  | finite sign mantissa exponent positive =>
      obtain ⟨small, least, greatest, leading⟩ := double
      have biased : (exponent + (Format.binary64.exponentBias : Int) + ((52 : Nat) : Int)).toNat =
          (exponent + 1075).toNat := by
        simp only [Format.exponentBias]; norm_num; omega
      have fits : ¬ 2 ^ 11 ≤ (exponent + 1075).toNat + 1 := by omega
      rw [Float.Model.unpack, ofUnpacked_unpack]
      simp only [Float.Model.pack, pack, biased, if_neg fits]
      by_cases normal : leadingBit ≤ mantissa
      · have length : mantissa.log2 + 1 = Format.binary64.mantissaBits := by
          have upper : mantissa.log2 < 53 := (Nat.log2_lt (by omega)).mpr small
          have lower : 52 ≤ mantissa.log2 := (Nat.le_log2 (by omega)).mpr normal
          simp only [Format.mantissaBits]; omega
        have fraction : (BitVec.ofNat 52 mantissa).toNat = mantissa - leadingBit := by
          simp only [BitVec.toNat_ofNat, leadingBit] at *; omega
        have field : (BitVec.ofNat 11 (exponent + 1075).toNat).toNat = (exponent + 1075).toNat := by
          rw [BitVec.toNat_ofNat]; omega
        have notFull : (exponent + 1075).toNat ≠ 2047 := by omega
        have notZero : (exponent + 1075).toNat ≠ 0 := by omega
        have rejoined : leadingBit + (mantissa - leadingBit) = mantissa := by omega
        have unbiased : ((exponent + 1075).toNat : Int) - 1075 = exponent := by omega
        rw [if_pos length, toNat_packComponents, field, fraction,
          ofBits_fields _ (by omega) (by omega), if_neg notFull, if_neg notZero, rejoined, unbiased]
        rfl
      · have length : mantissa.log2 + 1 ≠ Format.binary64.mantissaBits := by
          have upper : mantissa.log2 < 52 := (Nat.log2_lt (by omega)).mpr (by
            simp only [leadingBit] at normal; omega)
          simp only [Format.mantissaBits]; omega
        have fraction : (BitVec.ofNat 52 mantissa).toNat = mantissa := by
          simp only [BitVec.toNat_ofNat, leadingBit] at *; omega
        obtain rfl := leading.resolve_left normal
        rw [if_neg length, toNat_packComponents, fraction,
          ofBits_fields _ (by decide) (by omega)]
        rfl

/-- Unpacked values that denote the same are the same: a finite one is never
zero. -/
theorem ofUnpacked_injective : Function.Injective Binary.ofUnpacked := by
  have sign_of_isMinus {sign other : Sign} (h : isMinus sign = isMinus other) : sign = other := by
    cases sign <;> cases other <;> first | rfl | cases h
  intro left right same
  cases left <;> cases right <;> simp only [Binary.ofUnpacked, reduceCtorEq,
    Binary.infinite.injEq, Binary.finite.injEq] at same
  · rw [sign_of_isMinus same]
  · rfl
  · rw [sign_of_isMinus same.1]
  · omega
  · omega
  · obtain ⟨minus, rfl, rfl⟩ := same
    rw [sign_of_isMinus minus]

/-- What has been packed is unpacked again. -/
theorem unpack_pack {value : UnpackedFloat} (double : IsDouble value) :
    (Float.Model.pack value).unpack = value :=
  ofUnpacked_injective (ofUnpacked_unpack_pack double)

/-- The parts of a double that core has computed. -/
theorem ofFloat_pack {value : UnpackedFloat} (double : IsDouble value) :
    Binary.ofFloat (.ofModel (Float.Model.pack value)) = Binary.ofUnpacked value := by
  rw [ofFloat_eq]
  exact ofUnpacked_unpack_pack double

/-- Doubles with the same parts are the same. -/
theorem eq_of_parts {left right : Float} (same : Binary.ofFloat left = Binary.ofFloat right) :
    left = right := by
  rw [ofFloat_eq, ofFloat_eq] at same
  have unpacked := ofUnpacked_injective same
  have bits := (unpack_inj_of_valid left.toModel.valid right.toModel.valid).mp unpacked
  exact Float.toBits_inj.mp (UInt64.toBitVec_inj.mp bits)

/-- Negation turns the sign and keeps the rest. -/
def Binary.negate : Binary → Binary
  | .nan => .nan
  | .infinite negative => .infinite !negative
  | .finite negative mantissa exponent => .finite (!negative) mantissa exponent

/-- The parts of a negated double. -/
theorem ofFloat_neg (value : Float) : Binary.ofFloat (-value) = (Binary.ofFloat value).negate := by
  have double := isDouble_unpack value
  have negated : IsDouble value.toModel.unpack.neg := by
    cases unpacked : value.toModel.unpack with
    | finite sign mantissa exponent positive =>
        rw [unpacked] at double
        exact double
    | _ => trivial
  change Binary.ofFloat (.ofModel (Float.Model.pack value.toModel.unpack.neg)) = _
  rw [ofFloat_pack negated, ofFloat_eq]
  cases value.toModel.unpack with
  | notANumber => rfl
  | infinity sign => cases sign <;> rfl
  | zero sign => cases sign <;> rfl
  | finite sign => cases sign <;> rfl

/-- Giving a double a sign keeps its magnitude. -/
theorem ofFloat_signed {value : Float} (negative : Bool) {mantissa : Nat} {exponent : Int}
    (parts : Binary.ofFloat value = .finite false mantissa exponent) :
    Binary.ofFloat (signed negative value) = .finite negative mantissa exponent := by
  cases negative with
  | false => exact parts
  | true =>
      rw [signed, if_pos rfl, ofFloat_neg, parts]
      rfl

/-- The exponent at which a whole number has its leading bit in place. -/
def wholeShift (n : Nat) : Nat :=
  52 - n.log2

/-- A whole number of at most 53 bits is canonical once it is shifted. -/
theorem isCanonical_whole {n : Nat} (positive : 0 < n) (small : n < 2 * leadingBit) :
    IsCanonical (n * 2 ^ wholeShift n) (-wholeShift n) := by
  have length : n.log2 < 53 := (Nat.log2_lt (by omega)).mpr small
  have shifted : (n * 2 ^ wholeShift n).log2 = 52 := by
    rw [log2_shifted positive, wholeShift]; omega
  have nonzero : n * 2 ^ wholeShift n ≠ 0 := by positivity
  have fits : n * 2 ^ wholeShift n < 2 ^ 53 := (Nat.log2_lt nonzero).mp (by omega)
  have leading : 2 ^ 52 ≤ n * 2 ^ wholeShift n := (Nat.le_log2 nonzero).mp (by omega)
  exact ⟨fits, by simp only [wholeShift]; omega, by omega, .inl leading⟩

/-- The double of a machine word of at most 53 bits. -/
theorem ofUInt64_eq {n : Nat} (positive : 0 < n) (small : n < 2 * leadingBit) :
    UnpackedFloat.ofUInt64 Format.binary64 n.toUInt64 =
      .finite .positive (n * 2 ^ wholeShift n) (-wholeShift n) (by positivity) := by
  have word : n.toUInt64.toNat = n := by
    simp only [leadingBit] at small
    simp; omega
  have order : compare (n : Int) 0 = .gt := compare_gt_iff_gt.mpr (by omega)
  have canonical := isCanonical_whole positive small
  rw [← zero_sub] at canonical
  simp only [UnpackedFloat.ofUInt64, UnpackedFloat.ofNat, UnpackedFloat.ofInt,
    UnpackedFloat.normalize, word,
    order, Int.toNat_natCast, round_of_canonical .positive positive 0 (wholeShift n) canonical,
    zero_sub]

/-- The parts of a small whole number: its leading bit is in place. -/
theorem ofFloat_ofNat {n : Nat} (positive : 0 < n) (small : n < 2 * leadingBit) :
    Binary.ofFloat (Float.ofNat n) = .finite false (n * 2 ^ wholeShift n) (-wholeShift n) := by
  have fast : n < 2 ^ 53 ∧ 0 ≤ 22 := ⟨small, by decide⟩
  have canonical := isCanonical_whole positive small
  have nonzero : 0 < n * 2 ^ wholeShift n := by positivity
  have unit : (Float.ofBits 0x3FF0000000000000).toModel.unpack =
      .finite .positive (2 ^ 52) (-52) (by decide) := by
    apply ofUnpacked_injective
    rw [← ofFloat_eq]
    decide
  have word : (Float.Model.pack (ofUInt64 Format.binary64 n.toUInt64)).unpack =
      .finite .positive (n * 2 ^ wholeShift n) (-wholeShift n) nonzero := by
    rw [ofUInt64_eq positive small]
    exact unpack_pack canonical
  have scaled : Float.ofNat n = .ofModel (.pack (.finite .positive (n * 2 ^ wholeShift n)
      (-wholeShift n) nonzero)) := by
    rw [Float.ofNat]
    change Float.ofScientific n false 0 = _
    rw [Float.ofScientific, dif_pos fast]
    change Float.ofModel (.pack (UnpackedFloat.mul _ (Float.Model.pack _).unpack
      (Float.ofBits 0x3FF0000000000000).toModel.unpack)) = _
    rw [unit, word]
    change Float.ofModel (.pack (roundWithAccuracy _ .positive _ (-wholeShift n - (52 : Nat)) _)) = _
    rw [roundWithAccuracy_of_canonical .positive nonzero canonical 52]
  have double : IsDouble (.finite .positive (n * 2 ^ wholeShift n) (-wholeShift n) nonzero) :=
    canonical
  rw [scaled, ofFloat_pack double]
  rfl

/-- How often the number one counts the least positive double. -/
@[irreducible] def unitsPerOne : Nat :=
  2 ^ 1074

theorem unitsPerOne_pos : 0 < unitsPerOne := by
  unfold unitsPerOne
  positivity

/-- A small whole number is no NaN. -/
theorem isNaN_ofNat {n : Nat} (small : n < 2 * leadingBit) : (Float.ofNat n).isNaN = false := by
  rw [← Bool.not_eq_true, isNaN_iff]
  rcases Nat.eq_zero_or_pos n with rfl | positive
  · decide
  · rw [ofFloat_ofNat positive small]
    simp

/-- The count of a negated double. -/
theorem units_negate (parts : Binary) : parts.negate.units = -parts.units := by
  cases parts with
  | nan => rfl
  | infinite negative => cases negative <;> simp [Binary.negate, Binary.units, signedInt]
  | finite negative => cases negative <;> simp [Binary.negate, Binary.units, signedInt]

/-- Negation makes no NaN. -/
theorem negate_eq_nan_iff {parts : Binary} : parts.negate = .nan ↔ parts = .nan := by
  cases parts <;> simp [Binary.negate]

/-- The count of a small whole number. -/
theorem units_ofNat {n : Nat} (small : n < 2 * leadingBit) :
    (Binary.ofFloat (Float.ofNat n)).units = n * unitsPerOne := by
  by_cases zero : n = 0
  · have nothing : (Binary.ofFloat (Float.ofNat 0)).units = 0 := by decide
    subst zero
    simp [nothing]
  · have positive : 0 < n := Nat.pos_of_ne_zero zero
    have shift : wholeShift n + (-(wholeShift n : Int) + 1074).toNat = 1074 := by
      simp only [wholeShift]; omega
    have scale : 2 ^ wholeShift n * 2 ^ (-(wholeShift n : Int) + 1074).toNat = unitsPerOne := by
      unfold unitsPerOne
      rw [← pow_add, shift]
    simp only [ofFloat_ofNat positive small, Binary.units, unitsOf, mul_assoc, scale, signedInt,
      Bool.false_eq_true, if_false, Nat.cast_mul]

/-- Small whole numbers are ordered as numbers. -/
theorem ofNat_lt_ofNat_iff {n k : Nat} (small : n < 2 * leadingBit)
    (small_other : k < 2 * leadingBit) : Float.ofNat n < Float.ofNat k ↔ n < k := by
  have unit := unitsPerOne_pos
  rw [lt_iff_units (isNaN_ofNat small) (isNaN_ofNat small_other), units_ofNat small,
    units_ofNat small_other, mul_lt_mul_iff_of_pos_right (by omega)]
  exact Nat.cast_lt

/-- A small whole number counts itself. -/
theorem floorCount_ofNat {n : Nat} (small : n < 2 * leadingBit) :
    floorCount (Float.ofNat n) = n := by
  by_cases zero : n = 0
  · subst zero
    have parts : Binary.ofFloat (Float.ofNat 0) = .finite false 0 (-1074) := rfl
    simp [floorCount, parts]
  · have positive : 0 < n := Nat.pos_of_ne_zero zero
    have parts : powerOfTwo (-(wholeShift n : Int)) = (1, 2 ^ wholeShift n) := by
      simp [powerOfTwo]
    have fits : n ≤ maxCount := by
      simp only [leadingBit] at small
      simp only [maxCount, UInt64.size]
      omega
    simp only [floorCount, ofFloat_ofNat positive small, parts, mul_one,
      Nat.mul_div_cancel _ (Nat.two_pow_pos _), Bool.false_eq_true, if_false, min_eq_left fits]

/-- The whole part of a finite value, with its sign. -/
def wholePart (negative : Bool) (mantissa : Nat) (exponent : Int) : Int :=
  let (up, down) := powerOfTwo exponent
  signedInt negative (mantissa * up / down)

/-- A small whole number is its own whole part. -/
theorem parts_ofNat {n : Nat} (small : n < 2 * leadingBit) :
    ∃ mantissa exponent, Binary.ofFloat (Float.ofNat n) = .finite false mantissa exponent ∧
      wholePart false mantissa exponent = n := by
  rcases n.eq_zero_or_pos with rfl | positive
  · exact ⟨0, -1074, by decide, by simp [wholePart, signedInt]⟩
  · refine ⟨_, _, ofFloat_ofNat positive small, ?_⟩
    have parts : powerOfTwo (-(wholeShift n : Int)) = (1, 2 ^ wholeShift n) := by
      simp [powerOfTwo]
    simp only [wholePart, parts, mul_one, Nat.mul_div_cancel _ (Nat.two_pow_pos _), signedInt,
      Bool.false_eq_true, if_false]

/-- Truncation leaves the values alone that have no whole part. -/
theorem truncate_of_not_finite {value : Float} (special : value.isFinite = false) :
    truncate value = value := by
  unfold truncate
  split
  · next parts =>
      have finite := (isFinite_iff value).mpr ⟨_, _, _, parts⟩
      rw [special] at finite
      cases finite
  · rfl

/-- The count of a whole number that was given a sign. -/
theorem units_signedWhole (negative : Bool) {n : Nat} (small : n < 2 * leadingBit) :
    (Binary.ofFloat (signedWhole negative n)).units = signedInt negative n * unitsPerOne := by
  have positive := units_ofNat small
  cases negative with
  | false => simpa [signedWhole, signedInt] using positive
  | true => simp [signedWhole, signedInt, ofFloat_neg, units_negate, positive]

/-- A sign is kept by a positive factor. -/
theorem signedInt_mul (negative : Bool) (magnitude factor : Nat) :
    signedInt negative (magnitude * factor) = signedInt negative magnitude * factor := by
  cases negative <;> simp [signedInt]

/-- Truncation of a value with an exponent that is not negative. -/
theorem truncate_of_whole {value : Float} {negative : Bool} {mantissa power : Nat}
    (parts : Binary.ofFloat value = .finite negative mantissa (.ofNat power)) :
    truncate value = value := by
  unfold truncate
  rw [parts]

/-- Truncation of a value with a fraction. -/
theorem truncate_of_fraction {value : Float} {negative : Bool} {mantissa k : Nat}
    (parts : Binary.ofFloat value = .finite negative mantissa (.negSucc k)) :
    truncate value = signedWhole negative (mantissa / 2 ^ (k + 1)) := by
  unfold truncate
  rw [parts]
  rfl

/-- Truncation leaves the count of the whole part. -/
theorem units_truncate {value : Float} {negative : Bool} {mantissa : Nat} {exponent : Int}
    (parts : Binary.ofFloat value = .finite negative mantissa exponent) :
    (Binary.ofFloat (truncate value)).units =
      wholePart negative mantissa exponent * unitsPerOne := by
  have canonical := isCanonical_of_ofFloat parts
  cases exponent with
  | ofNat power =>
      have scale : 2 ^ (Int.ofNat power + 1074).toNat = 2 ^ power * unitsPerOne := by
        unfold unitsPerOne
        rw [← pow_add]
        rfl
      have whole : wholePart negative mantissa (.ofNat power) =
          signedInt negative (mantissa * 2 ^ power) := by
        simp [wholePart, powerOfTwo]
      rw [truncate_of_whole parts, parts, whole, Binary.units, unitsOf, scale, ← mul_assoc,
        signedInt_mul]
  | negSucc k =>
      have small : mantissa / 2 ^ (k + 1) < 2 * leadingBit :=
        (Nat.div_le_self _ _).trans_lt canonical.small
      have whole : wholePart negative mantissa (.negSucc k) =
          signedInt negative (mantissa / 2 ^ (k + 1)) := by
        simp [wholePart, powerOfTwo]
      rw [truncate_of_fraction parts, units_signedWhole negative small, whole]

/-- Truncation makes no NaN. -/
theorem isNaN_truncate (value : Float) : (truncate value).isNaN = value.isNaN := by
  by_cases special : value.isFinite = false
  · rw [truncate_of_not_finite special]
  · obtain ⟨negative, mantissa, exponent, parts⟩ := (isFinite_iff value).mp (by simpa using special)
    cases exponent with
    | ofNat power => rw [truncate_of_whole parts]
    | negSucc k =>
        have number : value.isNaN = false := by
          rw [← Bool.not_eq_true, isNaN_iff, parts]
          exact nofun
        have small : mantissa / 2 ^ (k + 1) < 2 * leadingBit :=
          (Nat.div_le_self _ _).trans_lt (isCanonical_of_ofFloat parts).small
        rw [truncate_of_fraction parts, number]
        have whole := isNaN_ofNat small
        rw [← Bool.not_eq_true, isNaN_iff] at whole ⊢
        cases negative with
        | false => exact whole
        | true =>
            rwa [signedWhole, if_pos rfl, ofFloat_neg, negate_eq_nan_iff]

/-- The magnitude of an integer with a sign. -/
theorem natAbs_signedInt (negative : Bool) (n : Nat) : (signedInt negative n).natAbs = n := by
  cases negative <;> simp [signedInt]

/-- The sign of a value is the sign of its whole part. -/
theorem signedInt_natAbs_wholePart (negative : Bool) (mantissa : Nat) (exponent : Int) :
    signedInt negative (wholePart negative mantissa exponent).natAbs =
      wholePart negative mantissa exponent :=
  congrArg (signedInt negative) (natAbs_signedInt negative _)

/-- Truncation of a value whose whole part is small gives that part. -/
theorem truncate_eq_signedWhole {value : Float} {negative : Bool} {mantissa : Nat} {exponent : Int}
    (parts : Binary.ofFloat value = .finite negative mantissa exponent)
    (small : (wholePart negative mantissa exponent).natAbs < leadingBit) :
    truncate value = signedWhole negative (wholePart negative mantissa exponent).natAbs := by
  cases exponent with
  | ofNat power =>
      -- Such a value has its leading bit in front of the point.
      have above : (power : Int) ≠ -1074 := by omega
      have leading : leadingBit ≤ mantissa :=
        (isCanonical_of_ofFloat parts).leading.resolve_right above
      have scaled : mantissa ≤ mantissa * 2 ^ power := Nat.le_mul_of_pos_right _ (by positivity)
      have magnitude : (wholePart negative mantissa (.ofNat power)).natAbs =
          mantissa * 2 ^ power := by
        simp [wholePart, powerOfTwo, natAbs_signedInt]
      omega
  | negSucc k =>
      rw [truncate_of_fraction parts]
      simp [wholePart, powerOfTwo, natAbs_signedInt]

end LaserCut.Decimal
