/-
# Adding a unit to the last place

A text of digits counts units of its last place, whether or not a point stands
between its digits.  Adding a unit goes from the last digit to the front: the carry
runs through nines and passes over the point, and it leaves the front just if there
is no other digit.  Then the number has a digit more, and otherwise as many as
before.

Without the point the digits are raised in the same way, so what is known about
digits alone carries over to both forms.
-/

import Mathlib
import LaserCut.Proofs.Decimal.Digits

namespace LaserCut.Decimal

/-- Raising the end of a text raises its front only if a carry comes out of
the end. -/
theorem raise_append (first second : List Char) :
    raise (first ++ second) =
      if (raise second).2 then ((raise first).1 ++ (raise second).1, (raise first).2)
      else (first ++ (raise second).1, false) := by
  induction first with
  | nil => cases carry : (raise second).2 <;> simp [raise, ← carry]
  | cons c first ih =>
      rw [List.cons_append, raise, ih]
      cases (raise second).2 with
      | false => simp
      | true =>
          simp only [raise, if_true]
          split_ifs <;> simp

/-- A carry passes over a point. -/
theorem raise_point (fraction : List Char) :
    raise ('.' :: fraction) = ('.' :: (raise fraction).1, (raise fraction).2) := by
  cases carry : (raise fraction).2 <;> simp [raise, carry]

/-- The digit after one that is not nine. -/
theorem isDigit_next {c : Char} (digital : c.isDigit = true) (small : c ≠ '9') :
    (Char.ofNat (c.toNat + 1)).isDigit = true := by
  have low := toNat_of_isDigit digital
  have below : c.toNat ≠ 57 := fun h => small (by rw [← Char.ofNat_toNat c, h])
  have range : c.toNat = 48 ∨ c.toNat = 49 ∨ c.toNat = 50 ∨ c.toNat = 51 ∨ c.toNat = 52 ∨
      c.toNat = 53 ∨ c.toNat = 54 ∨ c.toNat = 55 ∨ c.toNat = 56 := by
    omega
  rcases range with h | h | h | h | h | h | h | h | h <;> rw [h] <;> decide

/-- Raising digits gives digits. -/
theorem allDigits_raise {digits : List Char} (digital : AllDigits digits) :
    AllDigits (raise digits).1 := by
  induction digits with
  | nil => exact digital
  | cons c digits ih =>
      obtain ⟨first, others⟩ := List.forall_mem_cons.mp digital
      have point : c ≠ '.' := by rintro rfl; exact absurd first (by decide)
      simp only [raise, if_neg point]
      split_ifs with stopped nine
      · exact List.forall_mem_cons.mpr ⟨first, ih others⟩
      · exact List.forall_mem_cons.mpr ⟨rfl, ih others⟩
      · exact List.forall_mem_cons.mpr ⟨isDigit_next first nine, ih others⟩

/-- Raising keeps the number of characters. -/
theorem length_raise (text : List Char) : (raise text).1.length = text.length := by
  induction text with
  | nil => rfl
  | cons c text ih =>
      simp only [raise]
      split_ifs <;> simp [ih]

/-- Raising digits adds one to their number, and a carry counts as a digit in
front of them. -/
theorem valueOf_raise {digits : List Char} (digital : AllDigits digits) :
    valueOf (raise digits).1 + (if (raise digits).2 then 10 ^ digits.length else 0) =
      valueOf digits + 1 := by
  induction digits with
  | nil => rfl
  | cons c digits ih =>
      obtain ⟨first, others⟩ := List.forall_mem_cons.mp digital
      have tail := ih others
      have point : c ≠ '.' := by rintro rfl; exact absurd first (by decide)
      have size := length_raise digits
      simp only [raise, if_neg point]
      cases carry : (raise digits).2 with
      | false =>
          rw [carry] at tail
          simp only [Bool.not_false, if_true, Bool.false_eq_true, if_false, add_zero] at tail ⊢
          rw [valueOf_cons, valueOf_cons, size, tail, add_assoc]
      | true =>
          rw [carry] at tail
          simp only [if_true, Bool.not_true, Bool.false_eq_true, if_false] at tail ⊢
          have range := toNat_of_isDigit first
          have zero : '0'.toNat = 48 := rfl
          by_cases nine : c = '9'
          · subst nine
            have digit : '9'.toNat = 57 := rfl
            simp only [if_true]
            rw [valueOf_cons, valueOf_cons, size, List.length_cons, pow_succ]
            simp only [digit, zero]
            omega
          · have below : c.toNat ≠ 57 := fun h => nine (Char.toNat_inj.mp h)
            have next : (Char.ofNat (c.toNat + 1)).toNat = c.toNat + 1 := by
              rw [Char.toNat_ofNat, if_pos (.inl (by omega))]
            have digit : c.toNat + 1 - 48 = c.toNat - 48 + 1 := by omega
            simp only [if_neg nine, Bool.false_eq_true, if_false]
            rw [valueOf_cons, valueOf_cons, size, next, zero, digit, add_one_mul]
            omega

/-- A carry out of the front becomes a first digit. -/
theorem incrementLast_eq (text : List Char) :
    incrementLast text =
      if (raise text).2 then '1' :: (raise text).1 else (raise text).1 := by
  rw [incrementLast]
  split <;> simp_all

/-- Adding a unit to the last place of digits gives digits. -/
theorem incrementLast_whole {digits : List Char} (nonempty : digits ≠ [])
    (digital : AllDigits digits) :
    incrementLast digits ≠ [] ∧ AllDigits (incrementLast digits) := by
  have raised := allDigits_raise digital
  have size := length_raise digits
  rw [incrementLast_eq]
  split_ifs
  · exact ⟨by simp, List.forall_mem_cons.mpr ⟨rfl, raised⟩⟩
  · refine ⟨fun empty => nonempty ?_, raised⟩
    exact List.eq_nil_of_length_eq_zero (by rw [← size, empty]; rfl)

/-- Adding a unit to the last place of digits adds one to their number. -/
theorem valueOf_incrementLast {digits : List Char} (digital : AllDigits digits) :
    valueOf (incrementLast digits) = valueOf digits + 1 := by
  have total := valueOf_raise digital
  rw [incrementLast_eq]
  split_ifs with carry
  · have digit : '1'.toNat - '0'.toNat = 1 := rfl
    rw [if_pos carry] at total
    rw [valueOf_cons, length_raise, digit, one_mul, Nat.add_comm, total]
  · rwa [if_neg carry, Nat.add_zero] at total

/-- Adding a unit to the last digit of a whole number gives the next one. -/
theorem incrementLast_digitsOf (n : Nat) : incrementLast (digitsOf n) = digitsOf (n + 1) := by
  have digital := allDigits_digitsOf n
  have raised := allDigits_raise digital
  have size := length_raise (digitsOf n)
  have total := valueOf_raise digital
  have nonempty : 0 < (digitsOf n).length := List.length_pos_of_ne_nil (digitsOf_ne_nil n)
  obtain ⟨below, above⟩ := (length_digitsOf_iff nonempty).mp rfl
  have small := valueOf_lt raised
  rw [size] at small
  rw [valueOf_digitsOf] at total
  rw [incrementLast_eq]
  cases carry : (raise (digitsOf n)).2 with
  | false =>
      rw [carry] at total
      simp only [Bool.false_eq_true, if_false, add_zero] at total ⊢
      refine eq_digitsOf raised ?_ total
      rw [size, length_digitsOf_iff nonempty]
      exact ⟨by omega, above.imp id (fun h => by omega)⟩
  | true =>
      rw [carry] at total
      simp only [if_true] at total ⊢
      have digit : '1'.toNat - '0'.toNat = 1 := rfl
      refine eq_digitsOf (List.forall_mem_cons.mpr ⟨rfl, raised⟩) ?_ ?_
      · rw [List.length_cons, size, length_digitsOf_iff (Nat.succ_pos _), pow_succ]
        refine ⟨by omega, .inr ?_⟩
        change 10 ^ (digitsOf n).length ≤ n + 1
        omega
      · rw [valueOf_cons, size, digit]
        omega

/-- A point is passed over: digits are raised on both sides of it as they are without
it, and the whole part is raised only if the carry enters it. -/
theorem incrementLast_point (whole fraction : List Char) :
    ∃ front behind, (front = whole ∨ front = incrementLast whole) ∧
      behind.length = fraction.length ∧
      incrementLast (whole ++ fraction) = front ++ behind ∧
      incrementLast (whole ++ '.' :: fraction) = front ++ '.' :: behind := by
  have size := length_raise fraction
  rw [incrementLast_eq (whole ++ fraction), incrementLast_eq (whole ++ '.' :: fraction),
    raise_append, raise_append, raise_point]
  cases (raise fraction).2 with
  | false => exact ⟨whole, (raise fraction).1, .inl rfl, size, rfl, rfl⟩
  | true =>
      refine ⟨incrementLast whole, (raise fraction).1, .inr rfl, size, ?_, ?_⟩ <;>
        rw [incrementLast_eq] <;> cases (raise whole).2 <;> rfl

/-- Adding a unit to the last place gives the next number with these places. -/
theorem incrementLast_withPlaces (scaled places : Nat) :
    incrementLast (withPlaces scaled places) = withPlaces (scaled + 1) places := by
  rcases Nat.eq_zero_or_pos places with rfl | positive
  · simpa [withPlaces] using incrementLast_digitsOf scaled
  have unit : 0 < 10 ^ places := by positivity
  have digital := (allDigits_digitsOf (scaled / 10 ^ places)).append
    (allDigits_paddedFraction scaled places)
  obtain ⟨front, behind, entered, size, plain, pointed⟩ :=
    incrementLast_point (digitsOf (scaled / 10 ^ places)) (paddedFraction scaled places)
  have raised := (incrementLast_whole (List.append_ne_nil_of_left_ne_nil (digitsOf_ne_nil _) _)
    digital).2
  have total := valueOf_incrementLast digital
  rw [plain] at raised total
  rw [length_paddedFraction positive] at size
  have digits : AllDigits behind := fun c inside => raised c (List.mem_append_right _ inside)
  have small := valueOf_lt digits
  rw [valueOf_append, valueOf_append, length_paddedFraction positive, valueOf_digitsOf,
    valueOf_paddedFraction, Nat.div_add_mod', size] at total
  rw [size] at small
  -- the parts of the sum are its quotient and its remainder
  have quotient : valueOf front = (scaled + 1) / 10 ^ places := by
    rw [← total, Nat.add_comm, Nat.add_mul_div_right _ _ unit, Nat.div_eq_of_lt small, zero_add]
  have remainder : valueOf behind = (scaled + 1) % 10 ^ places := by
    rw [← total, Nat.mul_add_mod_of_lt small]
  have whole : front = digitsOf (valueOf front) := by
    rcases entered with rfl | rfl
    · rw [valueOf_digitsOf]
    · rw [incrementLast_digitsOf, valueOf_digitsOf]
  have fraction : behind = paddedFraction (scaled + 1) places :=
    eq_of_valueOf_eq digits (allDigits_paddedFraction _ _)
      (size.trans (length_paddedFraction positive).symm)
      (remainder.trans (valueOf_paddedFraction _ _).symm)
  rw [withPlaces_eq positive, withPlaces_eq positive, pointed, whole, quotient, fraction]

/-- Whether a text counts a number of units of its last place: digits, or digits with
a point between them and as many places as there are digits behind it. -/
inductive CountsUnits : List Char → Nat → Nat → Prop
  | whole {digits : List Char} (nonempty : digits ≠ []) (digital : AllDigits digits) :
      CountsUnits digits (valueOf digits) 0
  | pointed {whole fraction : List Char} (nonempty : whole ≠ []) (behind : fraction ≠ [])
      (digital : AllDigits whole) (digitalFraction : AllDigits fraction) :
      CountsUnits (whole ++ '.' :: fraction) (valueOf (whole ++ fraction)) fraction.length

/-- A number with fixed places counts units of the last of them. -/
theorem countsUnits_withPlaces (scaled places : Nat) :
    CountsUnits (withPlaces scaled places) scaled places := by
  rcases Nat.eq_zero_or_pos places with rfl | positive
  · have known := CountsUnits.whole (digitsOf_ne_nil scaled) (allDigits_digitsOf scaled)
    rw [valueOf_digitsOf] at known
    simpa [withPlaces] using known
  · have size := @length_paddedFraction scaled places positive
    have known := CountsUnits.pointed (digitsOf_ne_nil (scaled / 10 ^ places))
      (List.ne_nil_of_length_pos (size.symm ▸ positive)) (allDigits_digitsOf _)
      (allDigits_paddedFraction scaled places)
    rwa [valueOf_append, size, valueOf_digitsOf, valueOf_paddedFraction, Nat.div_add_mod',
      ← withPlaces_eq positive] at known

/-- A text denotes the number of its units, moved down by its places. -/
theorem CountsUnits.denotes {text : List Char} {count places : Nat}
    (counts : CountsUnits text count places) : Denotes text ((count : ℚ) / 10 ^ places) := by
  cases counts with
  | whole nonempty digital =>
      rw [pow_zero, div_one]
      exact .whole nonempty digital
  | pointed nonempty _ digital digitalFraction => exact .pointed nonempty digital digitalFraction

/-- Writing a number with fixed places loses nothing. -/
theorem denotes_withPlaces (scaled places : Nat) :
    Denotes (withPlaces scaled places) ((scaled : ℚ) / 10 ^ places) :=
  (countsUnits_withPlaces scaled places).denotes

/-- Adding a unit to the last place of a text counts one unit more, of the same place. -/
theorem CountsUnits.incrementLast {text : List Char} {count places : Nat}
    (counts : CountsUnits text count places) :
    CountsUnits (incrementLast text) (count + 1) places := by
  cases counts with
  | whole nonempty digital =>
      obtain ⟨kept, digits⟩ := incrementLast_whole nonempty digital
      rw [← valueOf_incrementLast digital]
      exact .whole kept digits
  | @pointed whole fraction nonempty nonemptyFraction digital digitalFraction =>
      have all := digital.append digitalFraction
      obtain ⟨front, behind, entered, size, plain, pointed⟩ := incrementLast_point whole fraction
      have digits := (incrementLast_whole (List.append_ne_nil_of_left_ne_nil nonempty _) all).2
      rw [plain] at digits
      rw [← valueOf_incrementLast all, plain, pointed, ← size]
      refine .pointed ?_ ?_ (fun c inside => digits c (List.mem_append_left _ inside))
        fun c inside => digits c (List.mem_append_right _ inside)
      · rcases entered with rfl | rfl
        · exact nonempty
        · exact (incrementLast_whole nonempty digital).1
      · exact List.ne_nil_of_length_pos (size ▸ List.length_pos_of_ne_nil nonemptyFraction)

/-- Whether a text has no digit but nines. -/
def AllNines (text : List Char) : Prop :=
  ∀ c ∈ text, c = '9' ∨ c = '.'

instance (text : List Char) : Decidable (AllNines text) :=
  List.decidableBAll _ text

/-- A carry leaves the front of a text just if it has no digit but nines. -/
theorem raise_snd_iff (text : List Char) : (raise text).2 = true ↔ AllNines text := by
  induction text with
  | nil => simp [raise, AllNines]
  | cons c text ih =>
      rw [AllNines, List.forall_mem_cons, ← AllNines, ← ih]
      simp only [raise]
      cases (raise text).2 with
      | false => simp
      | true =>
          by_cases point : c = '.'
          · simp [point]
          · by_cases nine : c = '9' <;> simp [point, nine]

/-- A carry out of the front makes a text longer. -/
theorem length_incrementLast (text : List Char) :
    (incrementLast text).length = text.length + if AllNines text then 1 else 0 := by
  rw [incrementLast_eq]
  simp only [← raise_snd_iff]
  split_ifs with carry
  · rw [List.length_cons, length_raise]
  · rw [length_raise, Nat.add_zero]

/-- Adding a unit to the last place of a text counts one unit more.  The point stays in
front of the same number of places, and the text becomes longer, by one character, just
if all of its digits are nines. -/
theorem incrementLast_countsUnits {text : List Char} {count places : Nat}
    (counts : CountsUnits text count places) :
    CountsUnits (incrementLast text) (count + 1) places ∧
      Denotes (incrementLast text) ((count + 1 : ℚ) / 10 ^ places) ∧
      (incrementLast text).length = text.length + if AllNines text then 1 else 0 := by
  have raised := counts.incrementLast
  have denotes := raised.denotes
  rw [Nat.cast_add, Nat.cast_one] at denotes
  exact ⟨raised, denotes, length_incrementLast text⟩

/-- The carry runs through nines, across the point and into a new digit. -/
theorem incrementLast_nines :
    CountsUnits ['9', '.', '9'] 99 1 ∧ incrementLast ['9', '.', '9'] = ['1', '0', '.', '0'] ∧
      CountsUnits (incrementLast ['9', '.', '9']) 100 1 ∧
      Denotes (incrementLast ['9', '.', '9']) (10 : ℚ) ∧
      (incrementLast ['9', '.', '9']).length = 4 := by
  have counts : CountsUnits ['9', '.', '9'] 99 1 :=
    @CountsUnits.pointed ['9'] ['9'] (by decide) (by decide) (by simp [AllDigits])
      (by simp [AllDigits])
  obtain ⟨raised, denotes, length⟩ := incrementLast_countsUnits counts
  have ten : ((99 : Nat) + 1 : ℚ) / 10 ^ 1 = 10 := by norm_num
  rw [ten] at denotes
  exact ⟨counts, by decide, raised, denotes, length.trans (by decide)⟩

end LaserCut.Decimal
