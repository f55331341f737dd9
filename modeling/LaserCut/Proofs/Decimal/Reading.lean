/-
# Reading plain numbers

Digits with or without a point are read as the double that is nearest to the
number they denote, whatever that number is; so is a coordinate, which has a
sign at most in front of such digits.
-/

import Mathlib
import LaserCut.Proofs.Decimal.Raising

namespace LaserCut.Decimal

/-- Digits are taken up to the first character that is none. -/
theorem spanDigits_append {digits rest : List Char} (digital : AllDigits digits)
    (ends : ∀ c ∈ rest.head?, c.isDigit = false) :
    spanDigits (digits ++ rest) = (digits, rest) := by
  rw [spanDigits, List.span_eq_takeWhile_dropWhile]
  induction digits with
  | nil =>
      cases rest with
      | nil => rfl
      | cons c rest => simp [ends c rfl]
  | cons c digits ih =>
      obtain ⟨first, others⟩ := List.forall_mem_cons.mp digital
      have tail := Prod.mk.inj (ih others)
      simp [first, tail.1, tail.2]

/-- Digits to the end of a text are taken whole. -/
theorem spanDigits_of_allDigits {digits : List Char} (digital : AllDigits digits) :
    spanDigits digits = (digits, []) := by
  simpa using @spanDigits_append digits [] digital (by simp)

/-- Digits alone denote a whole number. -/
theorem magnitude?_of_allDigits {digits : List Char} (nonempty : digits ≠ [])
    (digital : AllDigits digits) : magnitude? digits = some (nearest (valueOf digits) 0) := by
  simp [magnitude?, spanDigits_of_allDigits digital, nonempty, exponentPart?]

/-- Digits with a point denote a fraction. -/
theorem magnitude?_pointed {whole fraction : List Char} (nonempty : whole ≠ [])
    (digital : AllDigits whole) (digitalFraction : AllDigits fraction) :
    magnitude? (whole ++ '.' :: fraction) =
      some (nearest (valueOf (whole ++ fraction)) (-fraction.length)) := by
  have pointed : ∀ c ∈ ('.' :: fraction).head?, c.isDigit = false := by
    simp
  simp [magnitude?, spanDigits_append digital pointed, spanDigits_of_allDigits digitalFraction,
    nonempty, exponentPart?]

/-- A text that denotes a number is read as some double. -/
theorem Denotes.magnitude? {text : List Char} {value : ℚ} (known : Denotes text value) :
    ∃ read, magnitude? text = some read := by
  cases known with
  | whole nonempty digital => exact ⟨_, magnitude?_of_allDigits nonempty digital⟩
  | pointed nonempty digital digitalFraction =>
      exact ⟨_, magnitude?_pointed nonempty digital digitalFraction⟩

/-- A text that starts with a digit has no sign. -/
theorem takeSign_of_isDigit {text : List Char}
    (digital : ∃ first rest, text = first :: rest ∧ first.isDigit = true) :
    takeSign text = (false, text) := by
  obtain ⟨first, rest, rfl, isDigit⟩ := digital
  have minus : first ≠ '-' := by rintro rfl; exact absurd isDigit (by decide)
  have plus : first ≠ '+' := by rintro rfl; exact absurd isDigit (by decide)
  simp [takeSign, minus, plus]

/-- A text that denotes a number is read without a sign. -/
theorem read?_of_denotes {text : List Char} {value : ℚ} (known : Denotes text value) :
    read? text = magnitude? text := by
  obtain ⟨read, found⟩ := known.magnitude?
  simp [read?, takeSign_of_isDigit known.head, found, signed]

/-- A minus in front of a text that denotes a number makes it negative. -/
theorem read?_minus_of_denotes {text : List Char} {value : ℚ} (known : Denotes text value) :
    read? ('-' :: text) = (magnitude? text).map (signed true) := by
  obtain ⟨read, found⟩ := known.magnitude?
  simp [read?, takeSign, found]

/-- A written whole number is read as the nearest double. -/
theorem read?_digitsOf (n : Nat) : read? (digitsOf n) = some (Float.ofNat n) := by
  rw [read?_of_denotes (denotes_digitsOf n),
    magnitude?_of_allDigits (digitsOf_ne_nil n) (allDigits_digitsOf n), valueOf_digitsOf]
  rfl

/-- The magnitude of a coordinate is a plain number. -/
theorem denotes_fixedMagnitude (mantissa : Nat) (exponent : Int) (places : Nat) :
    ∃ value, Denotes (fixedMagnitude mantissa exponent places) value := by
  rw [fixedMagnitude]
  split_ifs
  · exact ⟨_, (countsUnits_withPlaces _ _).incrementLast.denotes⟩
  · exact ⟨_, denotes_withPlaces _ _⟩

/-- A finite coordinate is a plain number with a minus at most in front. -/
theorem fixed_of_finite {value : Float} {negative : Bool} {mantissa : Nat} {exponent : Int}
    (finite : Binary.ofFloat value = .finite negative mantissa exponent) (places : Nat) :
    ∃ magnitude known, Denotes magnitude known ∧
      (fixed value places = magnitude ∨ fixed value places = '-' :: magnitude) := by
  obtain ⟨known, denotes⟩ := denotes_fixedMagnitude mantissa exponent places
  refine ⟨_, known, denotes, ?_⟩
  simp only [fixed, finite]
  split_ifs
  · exact .inr rfl
  · exact .inl rfl

/-- A finite coordinate that has been written can be read. -/
theorem read?_fixed {value : Float} {negative : Bool} {mantissa : Nat} {exponent : Int}
    (finite : Binary.ofFloat value = .finite negative mantissa exponent) (places : Nat) :
    ∃ read, read? (fixed value places) = some read := by
  obtain ⟨magnitude, known, denotes, positive | minus⟩ := fixed_of_finite finite places
  · obtain ⟨read, found⟩ := denotes.magnitude?
    exact ⟨read, by rw [positive, read?_of_denotes denotes, found]⟩
  · obtain ⟨read, found⟩ := denotes.magnitude?
    exact ⟨signed true read, by rw [minus, read?_minus_of_denotes denotes, found]; rfl⟩

end LaserCut.Decimal
