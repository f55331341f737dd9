/-
# Doubles of few digits in JSON texts

What is written for a double is collected digit by digit and scaled once.  Below
`10 ^ 16` the power of ten is negative, so the scaling is a division; if what was
collected and the power of ten are doubles themselves, it is the only step that
rounds, and the number that was written is read back.
-/

import Mathlib
import LaserCut.Proofs.Decimal.Scientific
import LaserCut.Proofs.Decimal.Shortest
import LaserCut.Proofs.Decimal.WrittenOut
import LaserCut.Proofs.Json.Numbers

namespace LaserCut.Json

open Decimal

/-- Digits are collected as long as they fit a machine word. -/
theorem collect_eq {significand : Nat} {digits : List Char} (digital : AllDigits digits)
    (fits : significand * 10 ^ digits.length + valueOf digits ≤ maxSignificand) :
    collect significand digits = (significand * 10 ^ digits.length + valueOf digits, []) := by
  induction digits generalizing significand with
  | nil => simp [collect, valueOf]
  | cons c digits ih =>
      obtain ⟨-, others⟩ := List.forall_mem_cons.mp digital
      have total : significand * 10 ^ (c :: digits).length + valueOf (c :: digits) =
          (10 * significand + (c.toNat - '0'.toNat)) * 10 ^ digits.length + valueOf digits := by
        rw [valueOf_cons, List.length_cons, pow_succ]
        ring
      rw [total] at fits ⊢
      have next : 10 * significand + (c.toNat - '0'.toNat) ≤ maxSignificand := by
        refine le_trans ?_ (le_trans (Nat.le_add_right _ _) fits)
        exact Nat.le_mul_of_pos_right _ (by positivity)
      rw [collect, if_pos next]
      exact ih others fits

/-- What a significand and a power of ten are read as. -/
def scaledNumeral (negative : Bool) (significand : Nat) (power : Int) : Numeral :=
  match scale (Float.ofNat significand) power with
  | some value => .decimal (signed negative value)
  | none => .tooLarge

section Numbers

variable {negative : Bool} {whole fraction : List Char}

/-- A number with few digits is collected in full. -/
theorem collect_whole_fraction (digital : AllDigits whole) (digitalFraction : AllDigits fraction)
    (fits : valueOf (whole ++ fraction) ≤ maxSignificand) :
    collect 0 whole = (valueOf whole, []) ∧
      collect (valueOf whole) fraction = (valueOf (whole ++ fraction), []) := by
  rw [valueOf_append] at fits ⊢
  refine ⟨?_, collect_eq digitalFraction fits⟩
  have front : 0 * 10 ^ whole.length + valueOf whole ≤ maxSignificand := by
    rw [zero_mul, zero_add]
    refine le_trans ?_ (le_trans (Nat.le_add_right _ _) fits)
    exact Nat.le_mul_of_pos_right _ (by positivity)
  simpa using collect_eq digital front

/-- A number with a point is scaled by the places behind it. -/
theorem decimalOf_pointed (digital : AllDigits whole) (digitalFraction : AllDigits fraction)
    (fits : valueOf (whole ++ fraction) ≤ maxSignificand) :
    decimalOf negative whole fraction none =
      scaledNumeral negative (valueOf (whole ++ fraction)) (-fraction.length) := by
  obtain ⟨front, back⟩ := collect_whole_fraction digital digitalFraction fits
  simp only [decimalOf, front, back, List.length_nil, Nat.sub_zero, Nat.cast_zero, zero_sub]
  rfl

/-- A number with a negative exponent is scaled by that and by the places behind its
point. -/
theorem decimalOf_exponent (digital : AllDigits whole) (digitalFraction : AllDigits fraction)
    (fits : valueOf (whole ++ fraction) ≤ maxSignificand) {power : Nat} (small : power ≤ maxExponent) :
    decimalOf negative whole fraction (some ⟨true, digitsOf power⟩) =
      scaledNumeral negative (valueOf (whole ++ fraction)) (-fraction.length - power) := by
  obtain ⟨front, back⟩ := collect_whole_fraction digital digitalFraction fits
  simp only [decimalOf, front, back, List.length_nil, Nat.sub_zero, Nat.cast_zero, zero_sub,
    valueOf_digitsOf, if_pos small, if_true]
  rfl

/-- Digits with a point between them are a number. -/
theorem scanMagnitude_pointed (nonempty : whole ≠ []) (digital : AllDigits whole)
    (single : whole.head? = some '0' → whole.length = 1) (nonemptyFraction : fraction ≠ [])
    (digitalFraction : AllDigits fraction) :
    scanMagnitude negative (whole ++ '.' :: fraction) =
      .ok (decimalOf negative whole fraction none, []) := by
  refine scanMagnitude_eq_ok_iff.mpr ⟨whole, '.' :: fraction, fraction, [], none,
    spanDigits_append digital (by simp), nonempty, fun padded => padded.2 (single padded.1),
    scanFraction_eq_ok_iff.mpr (.inr ⟨fraction, rfl, nonemptyFraction,
      spanDigits_of_allDigits digitalFraction⟩),
    rfl, ?_⟩
  rw [if_neg fun missing => nonemptyFraction (List.isEmpty_iff.mp missing.1)]

/-- A digit with a fraction at most and a negative exponent is a number. -/
theorem scanMagnitude_exponent {first : Char} (digital : first.isDigit = true)
    (digitalFraction : AllDigits fraction) (power : Nat) :
    scanMagnitude negative ([first] ++ (if fraction.isEmpty then [] else '.' :: fraction) ++
        'e' :: '-' :: digitsOf power) =
      .ok (decimalOf negative [first] fraction (some ⟨true, digitsOf power⟩), []) := by
  have exponent : scanExponent ('e' :: '-' :: digitsOf power) =
      .ok (some ⟨true, digitsOf power⟩, []) :=
    scanExponent_eq_ok_iff.mpr (.inr ⟨'e', '-' :: digitsOf power, digitsOf power, rfl, .inl rfl,
      digitsOf_ne_nil power, spanDigits_of_allDigits (allDigits_digitsOf power), rfl⟩)
  have ends : ∀ c ∈ ('e' :: '-' :: digitsOf power).head?, c.isDigit = false := by
    simp
  refine scanMagnitude_eq_ok_iff.mpr ⟨[first],
    (if fraction.isEmpty then [] else '.' :: fraction) ++ 'e' :: '-' :: digitsOf power, fraction,
    'e' :: '-' :: digitsOf power, some ⟨true, digitsOf power⟩, ?_, by simp, by simp, ?_, exponent,
    by simp⟩
  · rw [List.append_assoc]
    refine spanDigits_append (by simpa [AllDigits] using digital) ?_
    split_ifs <;> simp
  · split_ifs with missing
    · exact scanFraction_eq_ok_iff.mpr (.inl ⟨by simp, List.isEmpty_iff.mp missing, rfl⟩)
    · exact scanFraction_eq_ok_iff.mpr (.inr ⟨_, rfl,
        fun empty => missing (List.isEmpty_iff.mpr empty), spanDigits_append digitalFraction ends⟩)

end Numbers

/-- The text of significant digits in a document. -/
def exchangeText (number : Significant) : List Char :=
  if exchange.positional number.exponent then writtenOut exchange.keepsPoint number
  else withExponent number

/-- What significant digits are read as: the digits at their power of ten, or with
further zeros up to one behind the point. -/
structure IsScaling (number : Significant) (significand : Nat) (power : Int) : Prop where
  same : (significand : ℚ) * 10 ^ power = number.amount
  down : power < 0
  digits : significand = valueOf number.digits ∧
      power = number.exponent + 1 - number.digits.length ∨ power = -1 ∧ 10 ∣ significand

/-- The digits at their power of ten stand for the number. -/
theorem IsScaling.of_digits {number : Significant} {power : Int}
    (known : power = number.exponent + 1 - number.digits.length) (down : power < 0) :
    IsScaling number (valueOf number.digits) power :=
  ⟨by rw [Significant.amount, known], down, .inl ⟨rfl, known⟩⟩

section Texts

variable {number : Significant}

/-- What is written out below `10 ^ 16` is collected and scaled by the places behind its
point. -/
theorem scanMagnitude_writtenOut (normal : number.IsNormal) (below : number.exponent ≤ 15)
    (fits : valueOf number.digits ≤ maxSignificand) (negative : Bool) :
    ∃ significand power, IsScaling number significand power ∧
      scanMagnitude negative (writtenOut true number) =
        .ok (scaledNumeral negative significand power, []) := by
  obtain ⟨whole, fraction, text, plain, same, digits⟩ := exists_writtenOut normal
  have placed : 0 < fraction.length := List.length_pos_iff.mpr plain.nonemptyFraction
  have collected : valueOf (whole ++ fraction) ≤ maxSignificand := by
    rcases digits with ⟨value, -⟩ | ⟨single, -, length⟩
    · rwa [value]
    · have bound := valueOf_lt (plain.digital.append plain.digitalFraction)
      have length : (whole ++ fraction).length ≤ 17 := by
        rw [List.length_append]
        omega
      exact (bound.le.trans (Nat.pow_le_pow_right (by decide) length)).trans (by decide)
  refine ⟨_, -fraction.length, ⟨same, by omega, ?_⟩, ?_⟩
  · exact digits.imp id fun ⟨single, tenth, _⟩ => ⟨by rw [single]; rfl, tenth⟩
  · rw [text, scanMagnitude_pointed plain.nonempty plain.digital plain.single
      plain.nonemptyFraction plain.digitalFraction,
      decimalOf_pointed plain.digital plain.digitalFraction collected]

/-- A small fraction is read at its power of ten. -/
theorem scanMagnitude_withExponent (normal : number.IsNormal) (below : number.exponent < 0)
    (least : -(maxExponent : Int) ≤ number.exponent)
    (fits : valueOf number.digits ≤ maxSignificand) (negative : Bool) :
    ∃ significand power, IsScaling number significand power ∧
      scanMagnitude negative (withExponent number) =
        .ok (scaledNumeral negative significand power, []) := by
  obtain ⟨first, fraction, split⟩ := List.exists_cons_of_ne_nil normal.nonempty
  have digital := normal.digital
  rw [split] at digital
  obtain ⟨digital_first, digital_fraction⟩ := List.forall_mem_cons.mp digital
  have text : withExponent number = [first] ++ (if fraction.isEmpty then [] else '.' :: fraction) ++
      'e' :: '-' :: digitsOf number.exponent.natAbs := by
    simp only [withExponent, split, if_pos below]
    rfl
  have single : AllDigits [first] := by simpa [AllDigits] using digital_first
  have whole : valueOf ([first] ++ fraction) = valueOf number.digits := by
    rw [split]
    rfl
  have length : number.digits.length = fraction.length + 1 := by
    rw [split]
    rfl
  refine ⟨_, -fraction.length - number.exponent.natAbs, .of_digits (by omega) (by omega), ?_⟩
  · rw [text, scanMagnitude_exponent digital_first digital_fraction,
      decimalOf_exponent single digital_fraction (by rwa [whole]) (by omega), whole]

/-- Significant digits below `10 ^ 16` are read at a power of ten. -/
theorem scanMagnitude_exchangeText (normal : number.IsNormal) (below : number.exponent ≤ 15)
    (least : -(maxExponent : Int) ≤ number.exponent)
    (fits : valueOf number.digits ≤ maxSignificand) (negative : Bool) :
    ∃ significand power, IsScaling number significand power ∧
      scanMagnitude negative (exchangeText number) =
        .ok (scaledNumeral negative significand power, []) := by
  rw [exchangeText]
  split_ifs with positional
  · exact scanMagnitude_writtenOut normal below fits negative
  · have small : number.exponent < 0 := by
      simp only [exchange, Bool.and_eq_true, decide_eq_true_iff] at positional
      omega
    exact scanMagnitude_withExponent normal small least fits negative

end Texts

/-- A division by a power of ten that is a double is the only step that rounds. -/
theorem scale_down {significand mantissa : Nat} {exponent power : Int}
    (parts : Binary.ofFloat (Float.ofNat significand) = .finite false mantissa exponent)
    (same : amount mantissa exponent = significand) (down : power < 0) (few : -22 ≤ power) :
    ∃ value, scale (Float.ofNat significand) power = some value ∧
      IsRounded value false (significand * 10 ^ power) := by
  obtain ⟨count, rfl⟩ : ∃ count : Nat, power = -count := ⟨power.natAbs, by omega⟩
  obtain ⟨_, _, ten, nonzero, unit⟩ := exists_parts_powerOfTen (show count ≤ 22 by omega)
  have quotient := isRounded_div parts ten nonzero
  rw [same, unit, ← zpow_natCast, div_eq_mul_inv, ← zpow_neg] at quotient
  refine ⟨Float.ofNat significand / nearest 1 count, ?_, quotient⟩
  have bounded : (-(count : Int)).natAbs ≤ maxPower := by
    simp only [maxPower]
    omega
  rw [scale, if_pos bounded, if_neg (not_le.mpr down), neg_neg]

/-- What is collected from few digits is a double. -/
theorem IsScaling.exists_parts {number : Significant} {significand : Nat} {power : Int}
    (scaling : IsScaling number significand power) (positive : 0 < number.amount)
    (few : valueOf number.digits ≤ 10 ^ sureDigits) (small : number.amount < 10 ^ sureDigits) :
    ∃ mantissa exponent, Binary.ofFloat (Float.ofNat significand) = .finite false mantissa exponent ∧
      amount mantissa exponent = significand := by
  have counted : 0 < significand := by
    refine Nat.pos_of_ne_zero fun zero => ?_
    rw [← scaling.same, zero, Nat.cast_zero, zero_mul] at positive
    exact lt_irrefl _ positive
  have rounded : IsRounded (Float.ofNat significand) false (significand * 10 ^ (0 : Int)) :=
    isRounded_nearest significand 0
  rw [zpow_zero, mul_one] at rounded
  rcases scaling.digits with ⟨same, -⟩ | ⟨tenth, half, rfl⟩
  · have bits : significand < 2 * leadingBit := by
      rw [same]
      exact few.trans_lt (by decide)
    obtain ⟨mantissa, exponent, parts, -, value⟩ :=
      @IsRounded.exists_parts _ _ significand 0 (by rwa [pow_zero, mul_one]) counted bits
        (by decide)
    exact ⟨mantissa, exponent, parts, by rw [value, pow_zero, mul_one]⟩
  · -- ten times a whole number below 10 ^ 15 is even, and half of it has few bits
    have bound : (half : ℚ) < 10 ^ sureDigits := by
      have total := scaling.same
      rw [tenth] at total
      rw [← total] at small
      refine lt_of_le_of_lt (le_of_eq ?_) small
      push_cast
      rw [zpow_neg_one]
      ring
    have bits : 5 * half < 2 * leadingBit := by
      have count : half < 10 ^ sureDigits := by exact_mod_cast bound
      simp only [sureDigits, leadingBit] at count ⊢
      omega
    have factors : ((10 * half : Nat) : ℚ) = (5 * half : Nat) * 2 ^ 1 := by
      push_cast
      ring
    rw [factors] at rounded
    obtain ⟨mantissa, exponent, parts, -, value⟩ :=
      rounded.exists_parts (by omega) bits (by decide)
    exact ⟨mantissa, exponent, parts, by rw [value, ← factors]⟩

/-- The powers of ten of few digits are read exactly. -/
theorem IsScaling.le_power {number : Significant} {significand : Nat} {power : Int}
    (scaling : IsScaling number significand power)
    (fine : -22 ≤ number.exponent + 1 - number.digits.length) : -22 ≤ power := by
  rcases scaling.digits with ⟨-, rfl⟩ | ⟨rfl, -⟩
  · exact fine
  · decide

/-- A double of few digits is read back from what is written for it. -/
theorem scanNumber_render {value : Float} (short : IsShort value) :
    scanNumber (exchange.render value) = .ok (.decimal value, []) := by
  rcases short.cases with ⟨negative, rfl⟩ |
    ⟨digits, places, negative, mantissa, exponent, few, counts, near, normal, rounds, parts⟩
  · cases negative <;> decide +kernel
  · have positive : 0 < mantissa := lt_of_lt_of_le (by decide) normal
    obtain ⟨proper, read⟩ := roundsTo_shortest .toEven rounds.aligned positive
    obtain ⟨least, less, fine⟩ := shortest_of_decimal .toEven few counts normal rounds
    have text : exchange.render value = if negative then '-' :: exchangeText (shortest .toEven mantissa exponent)
        else exchangeText (shortest .toEven mantissa exponent) := by
      simp only [Layout.render, parts, significant, if_neg positive.ne']
      rfl
    rw [text]
    generalize shortest .toEven mantissa exponent = number at proper read least less fine ⊢
    have top : number.exponent < 15 := by
      have power := proper.pow_le.trans_lt less
      exact lt_of_ten_zpow_lt (by rwa [sureDigits, ← zpow_natCast] at power)
    have bottom : -21 ≤ number.exponent + 1 - number.digits.length := by
      simp only [surePlaces] at near
      omega
    have nonempty : 0 < number.digits.length := List.length_pos_iff.mpr proper.nonempty
    obtain ⟨significand, power, scaling, found⟩ := scanMagnitude_exchangeText proper (by omega)
      (by simp only [maxExponent]; omega) (least.trans (by decide)) negative
    have above : 0 < number.amount := lt_of_lt_of_le (by positivity) proper.pow_le
    obtain ⟨_, _, collected, whole⟩ := scaling.exists_parts above least less
    obtain ⟨result, scaled, rounded⟩ :=
      scale_down collected whole scaling.down (scaling.le_power (by omega))
    rw [scaling.same] at rounded
    have back : signed negative result = value :=
      eq_of_parts ((ofFloat_signed negative
        (rounded.parts read (isCanonical_of_ofFloat parts).greatest)).trans parts.symm)
    rw [scaledNumeral, scaled] at found
    dsimp only at found
    rw [back] at found
    cases negative with
    | false => exact scanNumber_of_scanMagnitude found
    | true => exact found

end LaserCut.Json
