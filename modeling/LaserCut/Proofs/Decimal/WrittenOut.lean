/-
# Numbers that are written out

Significant digits that are written out have a point with digits on either side, and
no superfluous zero in front.  Where the point stands depends on the power of ten of
the first digit: the digits come behind zeros, they are divided, or zeros come behind
them; the number that is written is the same in all three cases.

In a configuration file every finite double is written so, and it is the double that is
nearest to what is written.
-/

import Mathlib
import LaserCut.Proofs.Decimal.Finite
import LaserCut.Proofs.Decimal.Scientific
import LaserCut.Proofs.Decimal.Shortest

namespace LaserCut.Decimal

/-- Digits on either side of a point, without a superfluous zero in front. -/
structure IsPlain (whole fraction : List Char) : Prop where
  digital : AllDigits whole
  digitalFraction : AllDigits fraction
  nonempty : whole ≠ []
  nonemptyFraction : fraction ≠ []
  single : whole.head? = some '0' → whole.length = 1

/-- Significant digits with a point: the point divides them or stands behind zeros,
or they are a whole number of which a zero behind the point is the last place. -/
structure IsWrittenOut (number : Significant) (whole fraction : List Char) : Prop where
  plain : IsPlain whole fraction
  same : (valueOf (whole ++ fraction) : ℚ) * 10 ^ (-fraction.length : Int) = number.amount
  digits : valueOf (whole ++ fraction) = valueOf number.digits ∧
      (-fraction.length : Int) = number.exponent + 1 - number.digits.length ∨
    fraction.length = 1 ∧ 10 ∣ valueOf (whole ++ fraction) ∧
      whole.length = number.exponent.toNat + 1

variable {number : Significant}

/-- Digits at their power of ten stand for the number. -/
theorem amount_of_digits {digits : List Char} {places : Int}
    (same : valueOf digits = valueOf number.digits)
    (power : places = number.exponent + 1 - number.digits.length) :
    (valueOf digits : ℚ) * 10 ^ places = number.amount := by
  rw [same, power, Significant.amount]

/-- A fraction has zeros in front of its digits. -/
theorem writtenOut_fraction (normal : number.IsNormal) (below : number.exponent < 0) :
    ∃ whole fraction, writtenOut true number = whole ++ '.' :: fraction ∧
      IsWrittenOut number whole fraction := by
  let fraction := List.replicate (-number.exponent - 1).toNat '0' ++ number.digits
  have text : writtenOut true number = ['0'] ++ '.' :: fraction := by
    simp only [writtenOut, if_pos below]
    rfl
  have value : valueOf (['0'] ++ fraction) = valueOf number.digits := by
    rw [← List.append_assoc]
    exact valueOf_zeros_append ((-number.exponent - 1).toNat + 1) number.digits
  have length : (fraction.length : Int) = -number.exponent - 1 + number.digits.length := by
    simp only [fraction, List.length_append, List.length_replicate]
    omega
  have power : (-fraction.length : Int) = number.exponent + 1 - number.digits.length := by omega
  have nonempty : fraction ≠ [] := fun empty => normal.nonempty (List.append_eq_nil_iff.mp empty).2
  exact ⟨['0'], fraction, text,
    ⟨allDigits_zeros 1, (allDigits_zeros _).append normal.digital, by simp, nonempty, by simp⟩,
    amount_of_digits value power, .inl ⟨value, power⟩⟩

/-- A whole number has zeros behind its digits, and one behind the point. -/
theorem writtenOut_whole (normal : number.IsNormal) (above : 0 ≤ number.exponent)
    (whole : number.digits.length ≤ number.exponent.toNat + 1) :
    ∃ whole fraction, writtenOut true number = whole ++ '.' :: fraction ∧
      IsWrittenOut number whole fraction := by
  let count := number.exponent.toNat + 1 - number.digits.length
  let padded := number.digits ++ List.replicate count '0'
  have text : writtenOut true number = padded ++ '.' :: ['0'] := by
    simp only [writtenOut, if_neg (not_lt.mpr above), if_pos whole]
    rfl
  have value : valueOf (padded ++ ['0']) = valueOf number.digits * 10 ^ (count + 1) := by
    have zeros := valueOf_zeros_append (count + 1) []
    rw [List.append_nil] at zeros
    simp only [padded, List.append_assoc]
    rw [← List.replicate_succ', valueOf_append, zeros, List.length_replicate]
    rfl
  have nonempty : padded ≠ [] := fun empty => normal.nonempty (List.append_eq_nil_iff.mp empty).1
  have head : padded.head? ≠ some '0' := by
    rw [List.head?_append_of_ne_nil _ normal.nonempty]
    exact normal.head
  have same : (valueOf (padded ++ ['0']) : ℚ) * 10 ^ (-(1 : Nat) : Int) = number.amount := by
    have power : number.exponent + 1 - number.digits.length = ((count + 1 : Nat) : Int) + -1 := by
      simp only [count]
      omega
    rw [value, Significant.amount, power, zpow_add₀ (by norm_num), zpow_natCast]
    push_cast
    ring
  refine ⟨padded, ['0'], text,
    ⟨normal.digital.append (allDigits_zeros count), allDigits_zeros 1, nonempty, by simp,
      fun zero => absurd zero head⟩, same, .inr ⟨rfl, ?_, ?_⟩⟩
  · rw [value]
    exact Dvd.dvd.mul_left (dvd_pow_self 10 (by omega)) _
  · simp only [padded, count, List.length_append, List.length_replicate]
    omega

/-- Other digits are divided by the point. -/
theorem writtenOut_mixed (normal : number.IsNormal) (above : 0 ≤ number.exponent)
    (mixed : number.exponent.toNat + 1 < number.digits.length) :
    ∃ whole fraction, writtenOut true number = whole ++ '.' :: fraction ∧
      IsWrittenOut number whole fraction := by
  let places := number.exponent.toNat + 1
  have text : writtenOut true number =
      number.digits.take places ++ '.' :: number.digits.drop places := by
    simp only [writtenOut, if_neg (not_lt.mpr above), if_neg (not_le.mpr mixed)]
    rfl
  have split : number.digits.take places ++ number.digits.drop places = number.digits :=
    List.take_append_drop _ _
  have length : (number.digits.drop places).length = number.digits.length - places :=
    List.length_drop
  have power : (-(number.digits.drop places).length : Int) =
      number.exponent + 1 - number.digits.length := by
    omega
  have nonempty : number.digits.take places ≠ [] := by
    simp [places, normal.nonempty]
  have nonemptyRest : number.digits.drop places ≠ [] := by
    rw [← List.length_pos_iff, length]
    omega
  have head : (number.digits.take places).head? ≠ .some '0' := by
    have first := normal.head
    rwa [← split, List.head?_append_of_ne_nil _ nonempty] at first
  exact ⟨_, _, text,
    ⟨fun c inside => normal.digital c (List.mem_of_mem_take inside),
      fun c inside => normal.digital c (List.mem_of_mem_drop inside), nonempty, nonemptyRest,
      fun zero => absurd zero head⟩,
    amount_of_digits (by rw [split]) power, .inl ⟨by rw [split], power⟩⟩

/-- Significant digits that are written out have a point between digits, and keep
their number. -/
theorem exists_writtenOut (normal : number.IsNormal) :
    ∃ whole fraction, writtenOut true number = whole ++ '.' :: fraction ∧
      IsWrittenOut number whole fraction := by
  by_cases below : number.exponent < 0
  · exact writtenOut_fraction normal below
  · by_cases whole : number.digits.length ≤ number.exponent.toNat + 1
    · exact writtenOut_whole normal (not_lt.mp below) whole
    · exact writtenOut_mixed normal (not_lt.mp below) (not_le.mp whole)

/-- A finite double in a configuration file has a point between digits, and a minus at
most in front; it is the double that is nearest to them. -/
theorem configuration_render {value : Float} (finite : value.isFinite) :
    ∃ negative whole fraction, IsPlain whole fraction ∧
      configuration.render value =
        (if negative then '-' :: (whole ++ '.' :: fraction) else whole ++ '.' :: fraction) ∧
      value = signed negative (nearest (valueOf (whole ++ fraction)) (-fraction.length)) := by
  obtain ⟨negative, mantissa, exponent, parts⟩ := (isFinite_iff value).mp finite
  have canonical := isCanonical_of_ofFloat parts
  have text : configuration.render value =
      if negative then '-' :: writtenOut true (significant .up mantissa exponent)
      else writtenOut true (significant .up mantissa exponent) := by
    simp only [Layout.render, parts, configuration, if_true]
  have back (whole fraction : List Char)
      (rounds : RoundsTo (valueOf (whole ++ fraction) * 10 ^ (-fraction.length : Int)) mantissa
        exponent) :
      value = signed negative (nearest (valueOf (whole ++ fraction)) (-fraction.length)) :=
    eq_of_parts (parts.trans (ofFloat_signed negative
      ((isRounded_nearest _ _).parts rounds canonical.greatest)).symm)
  rcases mantissa.eq_zero_or_pos with rfl | positive
  · have least : exponent = -1074 := canonical.leading.resolve_left (by decide)
    refine ⟨negative, ['0'], ['0'],
      ⟨allDigits_zeros 1, allDigits_zeros 1, by simp, by simp, by simp⟩, text, back _ _ ?_⟩
    rw [least]
    simpa [valueOf] using roundsTo_zero
  · obtain ⟨normal, rounds⟩ := roundsTo_shortest .up canonical.isAligned positive
    rw [significant, if_neg positive.ne'] at text
    obtain ⟨whole, fraction, written, isWritten⟩ := exists_writtenOut normal
    rw [← isWritten.same] at rounds
    exact ⟨negative, whole, fraction, isWritten.plain, by rw [text, written], back _ _ rounds⟩

end LaserCut.Decimal
