/-
# Signs and points

A number in plain notation is a sign at most, and then digits with at most one
point, which may stand before, among or behind them.  Of the texts that are made of
these characters the reader takes exactly those, and gives the double that the
number rounds to; one that is too large is infinite.
-/

import Mathlib
import LaserCut.Proofs.Decimal.Reading
import LaserCut.Proofs.Decimal.Scientific

namespace LaserCut.Decimal

/-- Digits with at most one point before, among or behind them. -/
structure IsPointed (text : List Char) : Prop where
  marks : ∀ c ∈ text, c.isDigit = true ∨ c = '.'
  digit : ∃ c ∈ text, c.isDigit = true
  point : text.count '.' ≤ 1

/-- Such digits with a sign in front at most. -/
inductive IsSigned : List Char → Prop
  | plain {digits : List Char} (pointed : IsPointed digits) : IsSigned digits
  | minus {digits : List Char} (pointed : IsPointed digits) : IsSigned ('-' :: digits)
  | plus {digits : List Char} (pointed : IsPointed digits) : IsSigned ('+' :: digits)

/-- The digits of a number that stand behind its point. -/
def placesOf (text : List Char) : List Char :=
  (text.dropWhile (· ≠ '.')).drop 1

/-- The number that digits with a point stand for, whatever their sign. -/
def sizeOf (text : List Char) : ℚ :=
  valueOf (text.filter Char.isDigit) / 10 ^ (placesOf text).length

/-- A point is no digit. -/
theorem point_notMem {digits : List Char} (digital : AllDigits digits) : '.' ∉ digits :=
  fun inside => absurd (digital '.' inside) (by decide)

/-- A point can be found behind digits. -/
theorem dropWhile_digits {digits : List Char} (digital : AllDigits digits) (rest : List Char) :
    (digits ++ rest).dropWhile (· ≠ '.') = rest.dropWhile (· ≠ '.') :=
  List.dropWhile_append_of_pos fun c inside => by
    have other : c ≠ '.' := fun point => point_notMem digital (point ▸ inside)
    simpa using other

/-- Digits have a whole part and a fraction, with the point between them if there is
one. -/
theorem IsPointed.split {text : List Char} (pointed : IsPointed text) :
    (text ≠ [] ∧ AllDigits text) ∨
      ∃ whole fraction, text = whole ++ '.' :: fraction ∧ AllDigits whole ∧
        AllDigits fraction ∧ (whole ≠ [] ∨ fraction ≠ []) := by
  have digits {part : List Char} (inside : part ⊆ text) (pointless : '.' ∉ part) : AllDigits part :=
    fun c member => (pointed.marks c (inside member)).resolve_right
      fun point => pointless (point ▸ member)
  by_cases point : '.' ∈ text
  · obtain ⟨whole, fraction, rfl⟩ := List.append_of_mem point
    have count := pointed.point
    rw [List.count_append, List.count_cons_self] at count
    refine .inr ⟨whole, fraction, rfl, digits (List.subset_append_left ..) ?_,
      digits (fun c inside => by simp [inside]) ?_, ?_⟩
    · exact List.count_eq_zero.mp (by omega)
    · exact List.count_eq_zero.mp (by omega)
    · by_contra bare
      push Not at bare
      obtain ⟨rfl, rfl⟩ := bare
      obtain ⟨c, inside, digit⟩ := pointed.digit
      rw [List.mem_singleton.mp inside] at digit
      exact absurd digit (by decide)
  · obtain ⟨c, inside, -⟩ := pointed.digit
    exact .inl ⟨List.ne_nil_of_mem inside, digits (List.Subset.refl _) point⟩

/-- Digits alone have no point. -/
theorem isPointed_of_allDigits {digits : List Char} (nonempty : digits ≠ [])
    (digital : AllDigits digits) : IsPointed digits where
  marks c inside := .inl (digital c inside)
  digit := by
    obtain ⟨c, inside⟩ := List.exists_mem_of_ne_nil digits nonempty
    exact ⟨c, inside, digital c inside⟩
  point := by rw [List.count_eq_zero.mpr (point_notMem digital)]; exact Nat.zero_le 1

/-- Digits on either side of a point are a number. -/
theorem isPointed_of_split {whole fraction : List Char} (digital : AllDigits whole)
    (digitalFraction : AllDigits fraction) (nonempty : whole ≠ [] ∨ fraction ≠ []) :
    IsPointed (whole ++ '.' :: fraction) where
  marks c inside := by
    rcases List.mem_append.mp inside with front | back
    · exact .inl (digital c front)
    · exact (List.mem_cons.mp back).symm.imp_left (digitalFraction c)
  digit := by
    rcases nonempty with leading | trailing
    · obtain ⟨c, inside⟩ := List.exists_mem_of_ne_nil whole leading
      exact ⟨c, by simp [inside], digital c inside⟩
    · obtain ⟨c, inside⟩ := List.exists_mem_of_ne_nil fraction trailing
      exact ⟨c, by simp [inside], digitalFraction c inside⟩
  point := by
    rw [List.count_append, List.count_cons_self, List.count_eq_zero.mpr (point_notMem digital),
      List.count_eq_zero.mpr (point_notMem digitalFraction)]

/-- The size of digits without a point. -/
theorem sizeOf_of_allDigits {digits : List Char} (digital : AllDigits digits) :
    sizeOf digits = valueOf digits := by
  have noFraction : digits.dropWhile (· ≠ '.') = [] := by
    simpa using dropWhile_digits digital []
  rw [sizeOf, placesOf, noFraction, List.filter_eq_self.mpr digital]
  simp

/-- The size of digits on either side of a point. -/
theorem sizeOf_split {whole fraction : List Char} (digital : AllDigits whole)
    (digitalFraction : AllDigits fraction) :
    sizeOf (whole ++ '.' :: fraction) =
      valueOf (whole ++ fraction) / 10 ^ fraction.length := by
  have dropped : (whole ++ '.' :: fraction).dropWhile (· ≠ '.') = '.' :: fraction := by
    rw [dropWhile_digits digital]
    simp
  have point : ('.' : Char).isDigit = false := by decide
  rw [sizeOf, placesOf, dropped, List.filter_append, List.filter_cons, point,
    List.filter_eq_self.mpr digital, List.filter_eq_self.mpr digitalFraction]
  simp

/-- The size does not depend on the sign. -/
theorem sizeOf_cons {sign : Char} (mark : sign = '-' ∨ sign = '+') (digits : List Char) :
    sizeOf (sign :: digits) = sizeOf digits := by
  rcases mark with rfl | rfl <;> simp [sizeOf, placesOf]

/-- Digits on either side of a point are read as the nearest double. -/
theorem magnitude?_split {whole fraction : List Char} (digital : AllDigits whole)
    (digitalFraction : AllDigits fraction) (nonempty : whole ≠ [] ∨ fraction ≠ []) :
    magnitude? (whole ++ '.' :: fraction) =
      .some (nearest (valueOf (whole ++ fraction)) (-fraction.length)) := by
  have pointed : ∀ c ∈ ('.' :: fraction).head?, c.isDigit = false := by simp
  simp only [magnitude?, spanDigits_append digital pointed, spanDigits_of_allDigits digitalFraction,
    List.isEmpty_iff, if_neg (not_and_or.mpr nonempty), exponentPart?]
  simp

/-- Digits with a point at most are read as the double that they round to. -/
theorem IsPointed.magnitude? {text : List Char} (pointed : IsPointed text) :
    ∃ value, magnitude? text = some value ∧ IsRounded value false (sizeOf text) := by
  rcases pointed.split with ⟨nonempty, digital⟩ |
    ⟨whole, fraction, rfl, digital, digitalFraction, nonempty⟩
  · refine ⟨_, magnitude?_of_allDigits nonempty digital, ?_⟩
    have rounded := isRounded_nearest (valueOf text) 0
    rwa [zpow_zero, mul_one, ← sizeOf_of_allDigits digital] at rounded
  · refine ⟨_, magnitude?_split digital digitalFraction nonempty, ?_⟩
    have rounded := isRounded_nearest (valueOf (whole ++ fraction)) (-fraction.length)
    rwa [zpow_neg, zpow_natCast, ← div_eq_mul_inv, ← sizeOf_split digital digitalFraction]
      at rounded

/-- A sign turns the sign of what a rational rounds to. -/
theorem IsRounded.signed {value : Float} {exact : ℚ} (rounded : IsRounded value false exact)
    (negative : Bool) : IsRounded (signed negative value) negative exact := by
  obtain ⟨mantissa, exponent, rounds, parts⟩ := rounded
  refine ⟨mantissa, exponent, rounds, ?_⟩
  cases negative with
  | false => exact parts
  | true =>
      rw [Decimal.signed, if_pos rfl, ofFloat_neg, parts]
      split_ifs <;> rfl

/-- Digits with a point at most have no sign. -/
theorem IsPointed.takeSign {text : List Char} (pointed : IsPointed text) :
    takeSign text = (false, text) := by
  unfold Decimal.takeSign
  split
  · exact absurd (pointed.marks '-' List.mem_cons_self) (by decide)
  · exact absurd (pointed.marks '+' List.mem_cons_self) (by decide)
  · rfl

/-- A number in plain notation is read as the double that it rounds to. -/
theorem IsSigned.read? {text : List Char} (number : IsSigned text) :
    ∃ value, read? text = some value ∧
      IsRounded value (text.head? = some '-') (sizeOf text) := by
  cases number with
  | plain pointed =>
      obtain ⟨value, read, rounded⟩ := pointed.magnitude?
      have sign : text.head? ≠ some '-' := fun minus =>
        absurd (pointed.marks '-' (List.mem_of_mem_head? minus)) (by decide)
      refine ⟨Decimal.signed false value, ?_, ?_⟩
      · simp [Decimal.read?, pointed.takeSign, read]
      · rw [decide_eq_false sign]
        exact rounded.signed false
  | @minus digits pointed =>
      obtain ⟨value, read, rounded⟩ := pointed.magnitude?
      refine ⟨Decimal.signed true value, ?_, ?_⟩
      · simp [Decimal.read?, Decimal.takeSign, read]
      · rw [sizeOf_cons (.inl rfl)]
        exact rounded.signed true
  | @plus digits pointed =>
      obtain ⟨value, read, rounded⟩ := pointed.magnitude?
      refine ⟨Decimal.signed false value, ?_, ?_⟩
      · simp [Decimal.read?, Decimal.takeSign, read]
      · rw [sizeOf_cons (.inr rfl)]
        exact rounded.signed false

/-- Without an exponent, a number that is read is digits with a point at most. -/
theorem isPointed_of_magnitude? {text : List Char} {value : Float}
    (plain : ∀ c ∈ text, c ≠ 'e' ∧ c ≠ 'E') (read : magnitude? text = some value) :
    IsPointed text := by
  have nothing {rest : List Char} {power : Int} (suffix : rest <:+ text)
      (ends : exponentPart? rest = some power) : rest = [] := by
    cases rest with
    | nil => rfl
    | cons c rest =>
        obtain ⟨lower, upper⟩ := plain c (suffix.mem List.mem_cons_self)
        simp [exponentPart?, lower, upper] at ends
  simp only [magnitude?, spanDigits, List.span_eq_takeWhile_dropWhile] at read
  have digital : AllDigits (text.takeWhile Char.isDigit) := fun c => List.mem_takeWhile_imp
  have parts := List.takeWhile_append_dropWhile (p := Char.isDigit) (l := text)
  have behind := List.dropWhile_suffix Char.isDigit (l := text)
  generalize text.takeWhile Char.isDigit = whole at read digital parts
  generalize text.dropWhile Char.isDigit = rest at read parts behind
  split at read
  next after =>
    split_ifs at read with empty
    obtain ⟨power, ends, -⟩ := Option.map_eq_some_iff.mp read
    have digitalFraction : AllDigits (after.takeWhile Char.isDigit) :=
      fun c => List.mem_takeWhile_imp
    have suffix : after.dropWhile Char.isDigit <:+ text :=
      ((List.dropWhile_suffix _).trans (List.suffix_cons _ _)).trans behind
    have all := List.takeWhile_append_dropWhile (p := Char.isDigit) (l := after)
    rw [nothing suffix ends, List.append_nil] at all
    rw [all] at digitalFraction empty
    rw [← parts]
    refine isPointed_of_split digital digitalFraction ?_
    simpa only [List.isEmpty_iff, not_and_or] using empty
  next =>
    split_ifs at read with empty
    obtain ⟨power, ends, -⟩ := Option.map_eq_some_iff.mp read
    rw [nothing behind ends, List.append_nil] at parts
    rw [← parts]
    exact isPointed_of_allDigits (by simpa using empty) digital

/-- A number in plain notation is made of digits, points and signs, and of at least
one of them. -/
theorem IsSigned.numerals {text : List Char} (number : IsSigned text) :
    text ≠ [] ∧ ∀ c ∈ text, c.isDigit = true ∨ c = '.' ∨ c = '-' ∨ c = '+' := by
  have marks {digits : List Char} (pointed : IsPointed digits) :
      ∀ c ∈ digits, c.isDigit = true ∨ c = '.' ∨ c = '-' ∨ c = '+' :=
    fun c inside => (pointed.marks c inside).imp_right .inl
  cases number with
  | plain pointed =>
      obtain ⟨c, inside, -⟩ := pointed.digit
      exact ⟨List.ne_nil_of_mem inside, marks pointed⟩
  | minus pointed => exact ⟨nofun, List.forall_mem_cons.mpr ⟨by simp, marks pointed⟩⟩
  | plus pointed => exact ⟨nofun, List.forall_mem_cons.mpr ⟨by simp, marks pointed⟩⟩

/-- Digits have no lower case. -/
theorem toLower_of_isDigit {c : Char} (digit : c.isDigit = true) : c.toLower = c := by
  have bounds := toNat_of_isDigit digit
  rw [Char.toLower, dif_neg]
  rintro ⟨above, -⟩
  have letter : 65 ≤ c.toNat := UInt32.le_iff_toNat_le.mp above
  omega

/-- Names are not made of the characters of numbers. -/
theorem named?_of_numerals {text : List Char}
    (numerals : ∀ c ∈ text, c.isDigit = true ∨ c = '.' ∨ c = '-' ∨ c = '+') :
    named? text = none := by
  have kept : text.map Char.toLower = text := by
    refine (List.map_congr_left fun c inside => ?_).trans (List.map_id text)
    rcases numerals c inside with digit | rfl | rfl | rfl
    · exact toLower_of_isDigit digit
    all_goals rfl
  have other {name : String} (letter : 'n' ∈ name.toList) : String.ofList text ≠ name := by
    rintro rfl
    rw [String.toList_ofList] at letter
    exact absurd (numerals 'n' letter) (by decide)
  rw [named?, kept, if_neg (not_or_intro (other (by simp)) (other (by simp))),
    if_neg (other (by simp))]

/-- Of the texts that are made of digits, points and signs, those that are read are
in plain notation. -/
theorem isSigned_of_read? {text : List Char} {value : Float}
    (numerals : ∀ c ∈ text, c.isDigit = true ∨ c = '.' ∨ c = '-' ∨ c = '+')
    (read : read? text = some value) : IsSigned text := by
  have pointed {rest : List Char} {number : Float} (suffix : rest <:+ text)
      (found : (magnitude? rest).orElse (fun _ => named? rest) = some number) :
      IsPointed rest := by
    rw [named?_of_numerals fun c inside => numerals c (suffix.mem inside)] at found
    refine isPointed_of_magnitude? (fun c inside => ?_) (by simpa using found)
    have numeral := numerals c (suffix.mem inside)
    constructor <;> rintro rfl <;> exact absurd numeral (by decide)
  rw [read?] at read
  obtain ⟨number, found, -⟩ := Option.map_eq_some_iff.mp read
  split at found
  · exact .minus (pointed (List.suffix_cons ..) found)
  · exact .plus (pointed (List.suffix_cons ..) found)
  · exact .plain (pointed (List.suffix_refl _) found)

end LaserCut.Decimal
