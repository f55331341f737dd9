/-
# The sign of a zero

Two doubles that are equal as numbers differ in the sign of a zero at most.  A
comparison does not see that sign, and neither does the square of a difference:
the difference is a zero of some sign on both sides, or the same double.
-/

import Mathlib
import LaserCut.Proofs.Decimal.Whole

namespace LaserCut.Decimal

open Float.Model (UnpackedFloat Format)
open Float.Model.UnpackedFloat

/-- Values that are the same, or zeros. -/
def IsSameValue (left right : UnpackedFloat) : Prop :=
  left = right ∨ ∃ sign other, left = .zero sign ∧ right = .zero other

/-- Doubles that are the same, or zeros. -/
def IsSameNumber (left right : Float) : Prop :=
  IsSameValue left.toModel.unpack right.toModel.unpack

namespace IsSameValue

variable {left right other other' : UnpackedFloat}

/-- A comparison does not see the sign of a zero. -/
theorem compare (same : IsSameValue left right) (same_other : IsSameValue other other') :
    left.compare other = right.compare other' := by
  have zero_left (sign sign' : Sign) (value : UnpackedFloat) :
      (UnpackedFloat.zero sign).compare value = (UnpackedFloat.zero sign').compare value := by
    cases value with
    | notANumber => rfl
    | zero => rfl
    | infinity against => cases against <;> rfl
    | finite against => cases against <;> rfl
  have zero_right (value : UnpackedFloat) (sign sign' : Sign) :
      value.compare (.zero sign) = value.compare (.zero sign') := by
    cases value with
    | notANumber => rfl
    | zero => rfl
    | infinity against => cases against <;> rfl
    | finite against => cases against <;> rfl
  rcases same with rfl | ⟨sign, sign', rfl, rfl⟩ <;>
    rcases same_other with rfl | ⟨against, against', rfl, rfl⟩
  · rfl
  · exact zero_right _ _ _
  · exact zero_left _ _ _
  · rfl

/-- Differences of the same values are the same value. -/
theorem sub (same : IsSameValue left right) (same_other : IsSameValue other other') :
    IsSameValue (UnpackedFloat.sub Format.binary64 left other)
      (UnpackedFloat.sub Format.binary64 right other') := by
  have zeros (sign sign' : Sign) :
      ∃ result, UnpackedFloat.sub Format.binary64 (.zero sign) (.zero sign') = .zero result := by
    cases sign <;> cases sign' <;> exact ⟨_, rfl⟩
  have both (sign sign' against against' : Sign) :
      IsSameValue (UnpackedFloat.sub Format.binary64 (.zero sign) (.zero against))
        (UnpackedFloat.sub Format.binary64 (.zero sign') (.zero against')) := by
    obtain ⟨first, equal⟩ := zeros sign against
    obtain ⟨second, equal'⟩ := zeros sign' against'
    exact .inr ⟨first, second, equal, equal'⟩
  rcases same with rfl | ⟨sign, sign', rfl, rfl⟩ <;>
    rcases same_other with rfl | ⟨against, against', rfl, rfl⟩
  · exact .inl rfl
  · cases left with
    | zero sign => exact both sign sign against against'
    | _ => exact .inl rfl
  · cases other with
    | zero against => exact both sign sign' against against
    | _ => exact .inl rfl
  · exact both sign sign' against against'

/-- The square of a value has no sign of its own. -/
theorem mul_self (same : IsSameValue left right) :
    UnpackedFloat.mul Format.binary64 left left = UnpackedFloat.mul Format.binary64 right right := by
  rcases same with rfl | ⟨sign, other, rfl, rfl⟩
  · rfl
  · cases sign <;> cases other <;> rfl

end IsSameValue

/-- What is packed from the same values is the same number. -/
theorem isSameNumber_pack {left right : UnpackedFloat} (same : IsSameValue left right) :
    IsSameNumber (.ofModel (.pack left)) (.ofModel (.pack right)) := by
  rcases same with rfl | ⟨sign, other, rfl, rfl⟩
  · exact .inl rfl
  · have zero (sign : Sign) : IsDouble (.zero sign) := trivial
    exact .inr ⟨sign, other, unpack_pack (zero sign), unpack_pack (zero other)⟩

namespace IsSameNumber

variable {left right other other' : Float}

theorem refl (value : Float) : IsSameNumber value value :=
  .inl rfl

/-- Numbers are ordered without the signs of zeros. -/
theorem lt_iff (same : IsSameNumber left right) (same_other : IsSameNumber other other') :
    left < other ↔ right < other' := by
  change decide (left.toModel.unpack.lt other.toModel.unpack = true) = true ↔
    decide (right.toModel.unpack.lt other'.toModel.unpack = true) = true
  rw [UnpackedFloat.lt, UnpackedFloat.lt, same.compare same_other]

/-- Numbers are ordered weakly without the signs of zeros. -/
theorem le_iff (same : IsSameNumber left right) (same_other : IsSameNumber other other') :
    left ≤ other ↔ right ≤ other' := by
  change decide (left.toModel.unpack.le other.toModel.unpack = true) = true ↔
    decide (right.toModel.unpack.le other'.toModel.unpack = true) = true
  rw [UnpackedFloat.le, UnpackedFloat.le, same.compare same_other]

/-- A number is equal to itself, with either sign of a zero. -/
theorem beq (same : IsSameNumber left right) (number : left.isNaN = false) :
    (left == right) = true := by
  have itself := compare_unpacked (isDouble_unpack left) (isDouble_unpack left)
    (unpack_ne_notANumber number) (unpack_ne_notANumber number)
  have order := IsSameValue.compare (refl left) same
  rw [itself, compare_eq_iff_eq.mpr rfl] at order
  change (left.toModel.unpack.compare right.toModel.unpack == some .eq) = true
  rw [← order]
  rfl

/-- The square of a difference does not depend on the signs of zeros. -/
theorem square_sub (same : IsSameNumber left right) (same_other : IsSameNumber other other') :
    (left - other) * (left - other) = (right - other') * (right - other') := by
  have difference : IsSameNumber (left - other) (right - other') :=
    isSameNumber_pack (same.sub same_other)
  exact congrArg (fun value => Float.ofModel (.pack value)) difference.mul_self

end IsSameNumber

/-- Values that compare as equal are the same, or zeros. -/
theorem isSameValue_of_compare {left right : UnpackedFloat}
    (equal : left.compare right = some .eq) : IsSameValue left right := by
  have parts {exponent power : Int} {mantissa factor : Nat}
      (order : (compare exponent power).then (compare mantissa factor) = .eq) :
      exponent = power ∧ mantissa = factor := by
    rw [Ordering.then_eq_eq, compare_eq_iff_eq, compare_eq_iff_eq] at order
    exact order
  cases left with
  | notANumber => cases right <;> cases equal
  | infinity sign =>
      cases right with
      | infinity other => cases sign <;> cases other <;> first | exact .inl rfl | cases equal
      | _ => cases sign <;> cases equal
  | zero sign =>
      cases right with
      | zero other => exact .inr ⟨sign, other, rfl, rfl⟩
      | notANumber => cases equal
      | infinity other => cases other <;> cases equal
      | finite other => cases other <;> cases equal
  | finite sign mantissa exponent positive =>
      cases right with
      | notANumber => cases equal
      | infinity other => cases other <;> cases equal
      | zero other => cases sign <;> cases equal
      | finite other factor power positive' =>
          cases sign <;> cases other
          · have order := Option.some.inj equal
            rw [Ordering.swap_eq_eq] at order
            obtain ⟨rfl, rfl⟩ := parts order
            exact .inl rfl
          · cases equal
          · cases equal
          · obtain ⟨rfl, rfl⟩ := parts (Option.some.inj equal)
            exact .inl rfl

/-- Doubles that are equal as numbers are the same number. -/
theorem isSameNumber_of_beq {left right : Float} (equal : (left == right) = true) :
    IsSameNumber left right :=
  isSameValue_of_compare (eq_of_beq equal)

/-- Doubles with the same parts are the same number. -/
theorem isSameNumber_of_parts {left right : Float}
    (parts : Binary.ofFloat left = Binary.ofFloat right) : IsSameNumber left right := by
  rw [ofFloat_eq, ofFloat_eq] at parts
  exact .inl (ofUnpacked_injective parts)

/-- Zeros are the same number. -/
theorem isSameNumber_zero {left right : Float} {minus minus' : Bool} {exponent exponent' : Int}
    (parts : Binary.ofFloat left = .finite minus 0 exponent)
    (parts' : Binary.ofFloat right = .finite minus' 0 exponent') : IsSameNumber left right := by
  have zero {value : Float} {minus : Bool} {exponent : Int}
      (parts : Binary.ofFloat value = .finite minus 0 exponent) :
      ∃ sign, value.toModel.unpack = .zero sign := by
    rw [ofFloat_eq] at parts
    cases unpacked : value.toModel.unpack with
    | zero sign => exact ⟨sign, rfl⟩
    | finite sign mantissa power positive =>
        rw [unpacked] at parts
        exact absurd (Binary.finite.inj parts).2.1 positive.ne'
    | _ =>
        rw [unpacked] at parts
        cases parts
  obtain ⟨sign, first⟩ := zero parts
  obtain ⟨other, second⟩ := zero parts'
  exact .inr ⟨sign, other, first, second⟩

end LaserCut.Decimal
