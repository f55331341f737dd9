/-
# Digit texts and the numbers that they denote

Whole numbers are written without superfluous zeros, and a number with a
fixed number of places has a point between two runs of digits.  Both are read
without loss: `Denotes` says which rational number such a text stands for.
-/

import Mathlib
import LaserCut.Decimal.Fixed
import LaserCut.Decimal.Reader

namespace LaserCut.Decimal

/-- Whether a text consists of digits. -/
def AllDigits (text : List Char) : Prop :=
  ∀ c ∈ text, c.isDigit = true

/-- The characters of digits follow each other. -/
theorem toNat_of_isDigit {c : Char} (digit : c.isDigit = true) :
    48 ≤ c.toNat ∧ c.toNat ≤ 57 := by
  simpa [Char.isDigit, UInt32.le_iff_toNat_le] using digit

/-- Digits stay digits behind each other. -/
theorem AllDigits.append {first second : List Char} (left : AllDigits first)
    (right : AllDigits second) : AllDigits (first ++ second) :=
  fun c inside => (List.mem_append.mp inside).elim (left c) (right c)

/-- Zeros are digits. -/
theorem allDigits_zeros (count : Nat) : AllDigits (List.replicate count '0') := by
  intro c inside
  rw [List.eq_of_mem_replicate inside]
  rfl

/-- A written whole number consists of digits. -/
theorem allDigits_digitsOf (n : Nat) : AllDigits (digitsOf n) :=
  fun _ inside => Nat.isDigit_of_mem_toDigits (by decide) (by decide) inside

/-- A written whole number has a digit. -/
theorem digitsOf_ne_nil (n : Nat) : digitsOf n ≠ [] :=
  Nat.toDigits_ne_nil

/-- A written whole number denotes itself. -/
@[simp]
theorem valueOf_digitsOf (n : Nat) : valueOf (digitsOf n) = n :=
  Nat.ofDigitChars_toDigits (by decide) (by decide)

/-- Zeros in front of digits change nothing. -/
theorem valueOf_zeros_append (count : Nat) (digits : List Char) :
    valueOf (List.replicate count '0' ++ digits) = valueOf digits := by
  change Nat.ofDigitChars 10 _ 0 = Nat.ofDigitChars 10 _ 0
  rw [Nat.ofDigitChars_append, Nat.ofDigitChars_replicate_zero, Nat.mul_zero]

/-- Digits that follow others move them up by their number of places. -/
theorem valueOf_append (first second : List Char) :
    valueOf (first ++ second) = valueOf first * 10 ^ second.length + valueOf second := by
  change Nat.ofDigitChars 10 _ 0 = Nat.ofDigitChars 10 _ 0 * _ + Nat.ofDigitChars 10 _ 0
  rw [Nat.ofDigitChars_append, Nat.ofDigitChars_eq_ofDigitChars_zero, Nat.mul_comm]

/-- A number below a power of ten has no more digits than the power. -/
theorem length_digitsOf_le {n places : Nat} (positive : 0 < places) (small : n < 10 ^ places) :
    (digitsOf n).length ≤ places :=
  (Nat.length_toDigits_le_iff (by decide) positive).mpr small

/-- The first digit of a positive number is not a zero. -/
theorem head?_digitsOf_ne_zero {n : Nat} (positive : 0 < n) :
    (digitsOf n).head? ≠ some '0' := by
  induction n using Nat.strong_induction_on with
  | _ n ih =>
      by_cases single : n < 10
      · rw [digitsOf, Nat.toDigits_of_lt_base single]
        interval_cases n <;> decide
      · have split : digitsOf n = digitsOf (n / 10) ++ [(n % 10).digitChar] :=
          Nat.toDigits_of_base_le (by decide) (by omega)
        rw [split, List.head?_append_of_ne_nil _ (digitsOf_ne_nil _)]
        exact ih (n / 10) (by omega) (by omega)

/-- Multiplying a positive number by ten writes a zero behind it. -/
theorem digitsOf_mul_ten_pow {n : Nat} (positive : 0 < n) (count : Nat) :
    digitsOf (n * 10 ^ count) = digitsOf n ++ List.replicate count '0' := by
  induction count with
  | zero => simp
  | succ count ih =>
      have shifted : n * 10 ^ (count + 1) = 10 * (n * 10 ^ count) + 0 := by ring
      rw [shifted, digitsOf, ← Nat.toDigits_append_toDigits (by decide) (by positivity) (by decide),
        List.replicate_succ', ← List.append_assoc, ← ih]
      rfl

/-- The number of a digit. -/
theorem valueOf_cons (c : Char) (digits : List Char) :
    valueOf (c :: digits) = (c.toNat - '0'.toNat) * 10 ^ digits.length + valueOf digits := by
  have split := valueOf_append [c] digits
  simpa [valueOf] using split

/-- Digits denote a number with no more digits. -/
theorem valueOf_lt {digits : List Char} (digital : AllDigits digits) :
    valueOf digits < 10 ^ digits.length := by
  induction digits with
  | nil => decide
  | cons c digits ih =>
      obtain ⟨first, others⟩ := List.forall_mem_cons.mp digital
      have single : c.toNat - '0'.toNat ≤ 9 := by
        have range := toNat_of_isDigit first
        have zero : '0'.toNat = 48 := rfl
        omega
      have rest := ih others
      rw [valueOf_cons, List.length_cons, pow_succ]
      nlinarith

/-- Digits of one length that denote the same number are the same. -/
theorem eq_of_valueOf_eq {digits other : List Char} (digital : AllDigits digits)
    (digital_other : AllDigits other) (length : digits.length = other.length)
    (same : valueOf digits = valueOf other) : digits = other := by
  induction digits generalizing other with
  | nil => exact (List.eq_nil_of_length_eq_zero length.symm).symm
  | cons c digits ih =>
      obtain ⟨d, rest, rfl⟩ := List.exists_cons_of_length_eq_add_one length.symm
      obtain ⟨first, others⟩ := List.forall_mem_cons.mp digital
      obtain ⟨first', others'⟩ := List.forall_mem_cons.mp digital_other
      have shorter : digits.length = rest.length := Nat.succ.inj length
      rw [valueOf_cons, valueOf_cons, shorter] at same
      have small := valueOf_lt others
      rw [shorter] at small
      have small' := valueOf_lt others'
      have unit : 0 < 10 ^ rest.length := by positivity
      have heads : c.toNat - '0'.toNat = d.toNat - '0'.toNat := by
        have front := congrArg (· / 10 ^ rest.length) same
        simpa only [Nat.add_comm _ (valueOf _), Nat.add_mul_div_right _ _ unit,
          Nat.div_eq_of_lt small, Nat.div_eq_of_lt small', zero_add] using front
      have tails : valueOf digits = valueOf rest := by
        rw [heads] at same
        exact Nat.add_left_cancel same
      have equal : c = d := by
        have range := toNat_of_isDigit first
        have range' := toNat_of_isDigit first'
        have zero : '0'.toNat = 48 := rfl
        exact Char.toNat_inj.mp (by omega)
      rw [equal, ih others others' shorter tails]

/-- A number has a digit more for every power of ten that it reaches. -/
theorem length_digitsOf_iff {n length : Nat} (positive : 0 < length) :
    (digitsOf n).length = length ↔ n < 10 ^ length ∧ (length = 1 ∨ 10 ^ (length - 1) ≤ n) := by
  have upper {count : Nat} (counts : 0 < count) : (digitsOf n).length ≤ count ↔ n < 10 ^ count :=
    Nat.length_toDigits_le_iff (by decide) counts
  have nonempty : 0 < (digitsOf n).length := List.length_pos_of_ne_nil (digitsOf_ne_nil n)
  rw [← upper positive]
  rcases eq_or_ne length 1 with rfl | several
  · simp only [true_or, and_true]
    omega
  · have lower := @upper (length - 1) (by omega)
    simp only [several, false_or, ← not_lt, ← lower]
    omega

/-- Digits in their full number are what is written for their number. -/
theorem eq_digitsOf {digits : List Char} {n : Nat} (digital : AllDigits digits)
    (length : (digitsOf n).length = digits.length) (denotes : valueOf digits = n) :
    digits = digitsOf n :=
  eq_of_valueOf_eq digital (allDigits_digitsOf n) length.symm (by rw [denotes, valueOf_digitsOf])

/-- The number that digits denote, with a point between them or without one. -/
inductive Denotes : List Char → ℚ → Prop
  | whole {digits : List Char} (nonempty : digits ≠ []) (digital : AllDigits digits) :
      Denotes digits (valueOf digits)
  | pointed {whole fraction : List Char} (nonempty : whole ≠ [])
      (digital : AllDigits whole) (digitalFraction : AllDigits fraction) :
      Denotes (whole ++ '.' :: fraction)
        (valueOf (whole ++ fraction) / 10 ^ fraction.length)

/-- A written whole number denotes itself. -/
theorem denotes_digitsOf (n : Nat) : Denotes (digitsOf n) n := by
  have known := Denotes.whole (digitsOf_ne_nil n) (allDigits_digitsOf n)
  rwa [valueOf_digitsOf] at known

/-- The fraction of a number with fixed places, padded to its full length. -/
def paddedFraction (scaled places : Nat) : List Char :=
  let fraction := digitsOf (scaled % 10 ^ places)
  List.replicate (places - fraction.length) '0' ++ fraction

/-- A padded fraction has as many digits as there are places. -/
theorem length_paddedFraction {scaled places : Nat} (positive : 0 < places) :
    (paddedFraction scaled places).length = places := by
  have fits := length_digitsOf_le positive
    (Nat.mod_lt scaled (Nat.pow_pos (by decide : 0 < 10)) : scaled % 10 ^ places < 10 ^ places)
  simp only [paddedFraction, List.length_append, List.length_replicate]
  omega

/-- A padded fraction consists of digits. -/
theorem allDigits_paddedFraction (scaled places : Nat) :
    AllDigits (paddedFraction scaled places) :=
  (allDigits_zeros _).append (allDigits_digitsOf _)

/-- A padded fraction denotes what was padded. -/
theorem valueOf_paddedFraction (scaled places : Nat) :
    valueOf (paddedFraction scaled places) = scaled % 10 ^ places := by
  rw [paddedFraction, valueOf_zeros_append, valueOf_digitsOf]

/-- A number with fixed places, whole part and fraction apart. -/
theorem withPlaces_eq {scaled places : Nat} (positive : 0 < places) :
    withPlaces scaled places =
      digitsOf (scaled / 10 ^ places) ++ '.' :: paddedFraction scaled places := by
  simp only [withPlaces, if_neg (Nat.ne_of_gt positive), paddedFraction]
  simp

namespace Denotes

variable {text : List Char} {value : ℚ}

/-- A number starts with a digit. -/
theorem head (known : Denotes text value) :
    ∃ first rest, text = first :: rest ∧ first.isDigit = true := by
  cases known with
  | whole nonempty digital =>
      obtain ⟨first, rest, rfl⟩ := List.exists_cons_of_ne_nil nonempty
      exact ⟨first, rest, rfl, digital first List.mem_cons_self⟩
  | @pointed digits fraction nonempty digital =>
      obtain ⟨first, rest, rfl⟩ := List.exists_cons_of_ne_nil nonempty
      exact ⟨first, rest ++ '.' :: fraction, rfl, digital first List.mem_cons_self⟩

/-- A number consists of digits and a point. -/
theorem mem (known : Denotes text value) {c : Char} (inside : c ∈ text) :
    c.isDigit = true ∨ c = '.' := by
  cases known with
  | whole _ digital => exact .inl (digital c inside)
  | pointed _ digital digitalFraction =>
      rcases List.mem_append.mp inside with front | back
      · exact .inl (digital c front)
      · rcases List.mem_cons.mp back with point | tail
        · exact .inr point
        · exact .inl (digitalFraction c tail)

end Denotes

end LaserCut.Decimal
