/-
# Where a number of a text ends

A number is taken up to the first character that cannot go on with it.  What
follows a value inside an array or object is such a character, so a number that
is read to the end of its own text is read the same in front of it.
-/

import Mathlib
import LaserCut.Json.Scanner
import LaserCut.Json.Value
import LaserCut.Proofs.Decimal.Reading

namespace LaserCut.Json

/-- Whether a text is what may stand behind a value: nothing, a comma or a
closing bracket. -/
def EndsValue (text : List Char) : Prop :=
  ∀ c ∈ text.head?, c ∈ [',', ']', '\x7d']

/-- Whether a text starts with nothing that a number could go on with. -/
def EndsNumber (text : List Char) : Prop :=
  ∀ c ∈ text.head?, c.isDigit = false ∧ c ≠ '.' ∧ c ≠ 'e' ∧ c ≠ 'E'

/-- What ends a value is no part of a number. -/
theorem EndsValue.endsNumber {text : List Char} (ends : EndsValue text) : EndsNumber text := by
  intro c first
  have ending := ends c first
  simp only [List.mem_cons, List.not_mem_nil, or_false] at ending
  rcases ending with rfl | rfl | rfl <;> decide

/-- A text is the digits at its start and a rest that starts with no digit. -/
theorem spanDigits_eq_iff {text digits after : List Char} :
    Decimal.spanDigits text = (digits, after) ↔
      text = digits ++ after ∧ Decimal.AllDigits digits ∧
        ∀ c ∈ after.head?, c.isDigit = false := by
  constructor
  · intro found
    rw [Decimal.spanDigits, List.span_eq_takeWhile_dropWhile, Prod.mk.injEq] at found
    obtain ⟨rfl, rfl⟩ := found
    refine ⟨List.takeWhile_append_dropWhile.symm, fun c => List.mem_takeWhile_imp, ?_⟩
    intro c first
    have stops := List.head?_dropWhile_not Char.isDigit text
    rw [Option.mem_def.mp first] at stops
    exact stops
  · rintro ⟨rfl, digital, stops⟩
    exact Decimal.spanDigits_append digital stops

/-- A fraction is a point with digits behind it, or nothing. -/
theorem scanFraction_eq_ok_iff {text fraction after : List Char} :
    scanFraction text = .ok (fraction, after) ↔
      (text.head? ≠ some '.' ∧ fraction = [] ∧ after = text) ∨
        ∃ rest, text = '.' :: rest ∧ fraction ≠ [] ∧
          Decimal.spanDigits rest = (fraction, after) := by
  cases text with
  | nil => simp [scanFraction, eq_comm]
  | cons c text =>
      by_cases point : c = '.'
      · subst point
        simp only [scanFraction]
        split_ifs with empty <;> grind
      · simp [scanFraction, point, eq_comm]

/-- An exponent is a mark with a sign at most and digits behind it, or nothing. -/
theorem scanExponent_eq_ok_iff {text after : List Char} {exponent : Option ExponentPart} :
    scanExponent text = .ok (exponent, after) ↔
      (text.head? ≠ some 'e' ∧ text.head? ≠ some 'E' ∧ exponent = none ∧ after = text) ∨
        ∃ mark rest digits, text = mark :: rest ∧ (mark = 'e' ∨ mark = 'E') ∧ digits ≠ [] ∧
          Decimal.spanDigits (Decimal.takeSign rest).2 = (digits, after) ∧
            exponent = some ⟨(Decimal.takeSign rest).1, digits⟩ := by
  cases text with
  | nil => simp [scanExponent, eq_comm]
  | cons c text =>
      by_cases mark : c = 'e' ∨ c = 'E'
      · simp only [scanExponent, if_pos mark]
        split_ifs with empty <;> grind
      · simp only [scanExponent, if_neg mark]
        grind

/-- A number is digits without a superfluous zero, a fraction and an exponent. -/
theorem scanMagnitude_eq_ok_iff {negative : Bool} {text after : List Char}
    {numeral : Numeral} :
    scanMagnitude negative text = .ok (numeral, after) ↔
      ∃ whole behind fraction beyond exponent,
        Decimal.spanDigits text = (whole, behind) ∧ whole ≠ [] ∧
        ¬ (whole.head? = some '0' ∧ whole.length ≠ 1) ∧
        scanFraction behind = .ok (fraction, beyond) ∧
        scanExponent beyond = .ok (exponent, after) ∧
        numeral = if fraction.isEmpty ∧ exponent.isNone then integerOf negative whole
          else decimalOf negative whole fraction exponent := by
  rw [scanMagnitude]
  simp only [bind, Except.bind, throw, throwThe, MonadExceptOf.throw, pure, Except.pure]
  cases digits : Decimal.spanDigits text with
  | mk whole behind =>
      by_cases empty : whole = []
      · simp [empty]
      by_cases padded : whole.head? = some '0' ∧ whole.length ≠ 1
      · simp only [List.isEmpty_iff, if_neg empty, if_pos padded]
        grind
      cases front : scanFraction behind with
      | error fault => grind
      | ok fraction =>
          cases power : scanExponent fraction.2 with
          | error fault => grind
          | ok exponent =>
              simp only [List.isEmpty_iff, if_neg empty, if_neg padded, power]
              split_ifs <;> grind

/-- Digits are taken the same in front of what ends a number. -/
theorem spanDigits_before {text digits after rest : List Char} (ends : EndsNumber rest)
    (found : Decimal.spanDigits text = (digits, after)) :
    Decimal.spanDigits (text ++ rest) = (digits, after ++ rest) := by
  obtain ⟨rfl, digital, stops⟩ := spanDigits_eq_iff.mp found
  refine spanDigits_eq_iff.mpr ⟨List.append_assoc .., digital, ?_⟩
  cases after with
  | nil => exact fun c first => (ends c first).1
  | cons d after => exact stops

/-- A text in front of what ends a number does not start with a point or mark
unless it did so before. -/
theorem head?_before {text rest : List Char} (ends : EndsNumber rest) {c : Char}
    (mark : c = '.' ∨ c = 'e' ∨ c = 'E') (other : text.head? ≠ some c) :
    (text ++ rest).head? ≠ some c := by
  cases text with
  | nil =>
      intro first
      have apart := ends c first
      grind
  | cons d text => exact other

/-- A fraction is taken the same in front of what ends a number. -/
theorem scanFraction_before {text fraction after rest : List Char} (ends : EndsNumber rest)
    (found : scanFraction text = .ok (fraction, after)) :
    scanFraction (text ++ rest) = .ok (fraction, after ++ rest) := by
  apply scanFraction_eq_ok_iff.mpr
  rcases scanFraction_eq_ok_iff.mp found with ⟨plain, rfl, rfl⟩ | ⟨behind, rfl, nonempty, digits⟩
  · exact .inl ⟨head?_before ends (.inl rfl) plain, rfl, rfl⟩
  · exact .inr ⟨behind ++ rest, rfl, nonempty, spanDigits_before ends digits⟩

/-- A sign is taken the same in front of a text if anything follows it. -/
theorem takeSign_append {text rest : List Char} (nonempty : text ≠ []) :
    Decimal.takeSign (text ++ rest) =
      ((Decimal.takeSign text).1, (Decimal.takeSign text).2 ++ rest) := by
  cases text with
  | nil => exact absurd rfl nonempty
  | cons c text =>
      rw [List.cons_append]
      unfold Decimal.takeSign
      split <;> split <;> simp_all

/-- An exponent is taken the same in front of what ends a number. -/
theorem scanExponent_before {text after rest : List Char} {exponent : Option ExponentPart}
    (ends : EndsNumber rest) (found : scanExponent text = .ok (exponent, after)) :
    scanExponent (text ++ rest) = .ok (exponent, after ++ rest) := by
  apply scanExponent_eq_ok_iff.mpr
  rcases scanExponent_eq_ok_iff.mp found with
    ⟨small, capital, rfl, rfl⟩ | ⟨mark, behind, digits, rfl, isMark, counted, taken, rfl⟩
  · exact .inl ⟨head?_before ends (by simp) small, head?_before ends (by simp) capital, rfl, rfl⟩
  · have nonempty : behind ≠ [] := by
      rintro rfl
      cases taken
      exact counted rfl
    have signed := @takeSign_append behind rest nonempty
    refine .inr ⟨mark, behind ++ rest, digits, rfl, isMark, counted, ?_, ?_⟩
    · rw [signed]
      exact spanDigits_before ends taken
    · rw [signed]

/-- A number without its sign is taken the same in front of what ends a number. -/
theorem scanMagnitude_before {negative : Bool} {text after rest : List Char}
    {numeral : Numeral} (ends : EndsNumber rest)
    (found : scanMagnitude negative text = .ok (numeral, after)) :
    scanMagnitude negative (text ++ rest) = .ok (numeral, after ++ rest) := by
  obtain ⟨whole, behind, fraction, beyond, exponent, digits, nonempty, padded, front, power,
    known⟩ := scanMagnitude_eq_ok_iff.mp found
  exact scanMagnitude_eq_ok_iff.mpr
    ⟨whole, behind ++ rest, fraction, beyond ++ rest, exponent, spanDigits_before ends digits,
      nonempty, padded, scanFraction_before ends front, scanExponent_before ends power, known⟩

/-- A number has a first character, which is a minus or a digit. -/
theorem scanNumber_eq_ok {text after : List Char} {numeral : Numeral}
    (found : scanNumber text = .ok (numeral, after)) :
    (∃ rest, text = '-' :: rest ∧ scanMagnitude true rest = .ok (numeral, after)) ∨
      ∃ c rest, text = c :: rest ∧ c.isDigit = true ∧
        scanMagnitude false (c :: rest) = .ok (numeral, after) := by
  unfold scanNumber at found
  split at found
  · exact .inl ⟨_, rfl, found⟩
  · obtain ⟨whole, _, _, _, _, digits, nonempty, -⟩ := scanMagnitude_eq_ok_iff.mp found
    obtain ⟨rfl, digital, -⟩ := spanDigits_eq_iff.mp digits
    cases whole with
    | nil => exact absurd rfl nonempty
    | cons c whole => exact .inr ⟨c, _, rfl, digital c List.mem_cons_self, found⟩

/-- A number that starts with a digit has no sign. -/
theorem scanNumber_of_isDigit {c : Char} {rest : List Char} (digital : c.isDigit = true) :
    scanNumber (c :: rest) = scanMagnitude false (c :: rest) := by
  unfold scanNumber
  split
  · next found =>
      rw [(List.cons.inj found).1] at digital
      exact absurd digital (by decide)
  · rfl

/-- A number is taken the same in front of what ends a number. -/
theorem scanNumber_before {text after rest : List Char} {numeral : Numeral}
    (ends : EndsNumber rest) (found : scanNumber text = .ok (numeral, after)) :
    scanNumber (text ++ rest) = .ok (numeral, after ++ rest) := by
  rcases scanNumber_eq_ok found with ⟨behind, rfl, magnitude⟩ | ⟨c, behind, rfl, digital, magnitude⟩
  · exact scanMagnitude_before ends magnitude
  · rw [List.cons_append, scanNumber_of_isDigit digital]
    exact scanMagnitude_before ends magnitude

/-- Digits are taken off the front of a text. -/
theorem suffix_of_spanDigits {text digits after : List Char}
    (found : Decimal.spanDigits text = (digits, after)) : after <:+ text := by
  rw [(spanDigits_eq_iff.mp found).1]
  exact List.suffix_append digits after

/-- A sign is taken off the front of a text. -/
theorem suffix_of_takeSign (text : List Char) : (Decimal.takeSign text).2 <:+ text := by
  unfold Decimal.takeSign
  split
  · exact List.suffix_cons ..
  · exact List.suffix_cons ..
  · exact List.suffix_rfl

/-- A number is taken off the front of a text. -/
theorem suffix_of_scanMagnitude {negative : Bool} {text after : List Char} {numeral : Numeral}
    (found : scanMagnitude negative text = .ok (numeral, after)) : after <:+ text := by
  obtain ⟨whole, behind, fraction, beyond, exponent, digits, -, -, front, power, -⟩ :=
    scanMagnitude_eq_ok_iff.mp found
  have first : behind <:+ text := suffix_of_spanDigits digits
  have second : beyond <:+ behind := by
    rcases scanFraction_eq_ok_iff.mp front with ⟨-, -, rfl⟩ | ⟨rest, rfl, -, taken⟩
    · exact List.suffix_rfl
    · exact (suffix_of_spanDigits taken).trans (List.suffix_cons ..)
  have third : after <:+ beyond := by
    rcases scanExponent_eq_ok_iff.mp power with ⟨-, -, -, rfl⟩ | ⟨mark, rest, _, rfl, -, -, taken, -⟩
    · exact List.suffix_rfl
    · exact ((suffix_of_spanDigits taken).trans (suffix_of_takeSign rest)).trans
        (List.suffix_cons ..)
  exact (third.trans second).trans first

/-- A number with its sign is taken off the front of a text. -/
theorem suffix_of_scanNumber {text after : List Char} {numeral : Numeral}
    (found : scanNumber text = .ok (numeral, after)) : after <:+ text := by
  rcases scanNumber_eq_ok found with ⟨rest, rfl, magnitude⟩ | ⟨c, rest, rfl, -, magnitude⟩
  · exact (suffix_of_scanMagnitude magnitude).trans (List.suffix_cons ..)
  · exact suffix_of_scanMagnitude magnitude

/-- A written whole number has no superfluous zero. -/
theorem not_padded_digitsOf (n : Nat) :
    ¬ ((Decimal.digitsOf n).head? = some '0' ∧ (Decimal.digitsOf n).length ≠ 1) := by
  rintro ⟨zero, long⟩
  rcases n.eq_zero_or_pos with rfl | positive
  · exact long rfl
  · exact Decimal.head?_digitsOf_ne_zero positive zero

/-- A text that is a magnitude has no sign. -/
theorem scanNumber_of_scanMagnitude {text after : List Char} {numeral : Numeral}
    (found : scanMagnitude false text = .ok (numeral, after)) :
    scanNumber text = .ok (numeral, after) := by
  unfold scanNumber
  split
  · next rest =>
      obtain ⟨whole, _, _, _, _, digits, nonempty, -⟩ := scanMagnitude_eq_ok_iff.mp found
      have unread : Decimal.spanDigits ('-' :: rest) = ([], '-' :: rest) := by
        exact spanDigits_eq_iff.mpr ⟨rfl, fun c inside => absurd inside List.not_mem_nil, by simp⟩
      rw [unread] at digits
      exact absurd (Prod.mk.inj digits).1.symm nonempty
  · exact found

/-- Digits of a whole number are read as an integer with a sign. -/
theorem scanMagnitude_digitsOf (negative : Bool) (n : Nat) :
    scanMagnitude negative (Decimal.digitsOf n) =
      .ok (integerOf negative (Decimal.digitsOf n), []) :=
  scanMagnitude_eq_ok_iff.mpr ⟨Decimal.digitsOf n, [], [], [], none,
    Decimal.spanDigits_of_allDigits (Decimal.allDigits_digitsOf n), Decimal.digitsOf_ne_nil n,
    not_padded_digitsOf n, rfl, rfl, rfl⟩

/-- A whole number that fits a machine word is read as itself. -/
theorem scanNumber_renderInteger {n : Nat} (fits : n ≤ maxSignificand) :
    scanNumber (Json.renderInteger n) = .ok (.integer n, []) := by
  have written : Json.renderInteger n = Decimal.digitsOf n := by
    simp [Json.renderInteger]
  have taken := scanMagnitude_digitsOf false n
  rw [written]
  apply scanNumber_of_scanMagnitude
  rw [taken]
  simp [integerOf, fits]

/-- A negative whole number that fits a machine word is read as itself. -/
theorem scanNumber_renderInteger_neg {n : Nat} (positive : 0 < n) (fits : n ≤ 0x8000000000000000) :
    scanNumber (Json.renderInteger (-n)) = .ok (.integer (-n), []) := by
  have written : Json.renderInteger (-n) = '-' :: Decimal.digitsOf n := by
    simp [Json.renderInteger, positive]
  have taken := scanMagnitude_digitsOf true n
  have within : ¬ (n = 0 ∨ 0x8000000000000000 < n) := by omega
  rw [written]
  change scanMagnitude true (Decimal.digitsOf n) = _
  rw [taken, integerOf, Decimal.valueOf_digitsOf, if_pos rfl, if_neg within]

end LaserCut.Json
