/-
# Numbers of parsed texts are finite

A number that no double can hold is kept apart by the scanner, so every number of
a parsed tree is finite, wherever it stands and wherever the text is broken.
-/

import Mathlib
import LaserCut.Json.Parser
import LaserCut.Proofs.Decimal.Finite
import LaserCut.Proofs.Json.Decimals

namespace LaserCut.Json

open Decimal

/-- Collected digits fit a machine word. -/
theorem collect_le {significand : Nat} (fits : significand ≤ maxSignificand) (digits : List Char) :
    (collect significand digits).1 ≤ maxSignificand := by
  induction digits generalizing significand with
  | nil => exact fits
  | cons c rest ih =>
      rw [collect]
      split_ifs with next
      · exact ih next
      · exact fits

/-- A finite double divided by a power of ten that is applied in one step. -/
theorem isFinite_div_power {value : Float} (finite : value.isFinite) {power : Nat}
    (small : power ≤ maxPower) : (value / nearest 1 power).isFinite := by
  obtain ⟨mantissa, exponent, parts, large⟩ := exists_parts_nearest_one small
  exact isFinite_div finite parts large

/-- A finite value is scaled to a finite one, if to any. -/
theorem isFinite_of_scale {value result : Float} {power : Int} (finite : value.isFinite)
    (scaled : scale value power = some result) : result.isFinite := by
  induction value, power using scale.induct with
  | case1 value power small up product large =>
      rw [scale, if_pos small, if_pos up] at scaled
      simp only [product] at large
      simp [large] at scaled
  | case2 value power small up product bounded =>
      rw [scale, if_pos small, if_pos up] at scaled
      simp only [product, Bool.not_eq_true] at bounded
      simp only [bounded, Bool.false_eq_true, if_false, Option.some.injEq] at scaled
      obtain ⟨count, rfl⟩ := Int.eq_ofNat_of_zero_le up
      obtain ⟨_, _, parts, -⟩ := @exists_parts_nearest_one count small
      have factor := (isFinite_iff _).mpr ⟨_, _, _, parts⟩
      rw [← scaled]
      exact isFinite_mul finite factor bounded
  | case3 value power small down =>
      rw [scale, if_pos small, if_neg down] at scaled
      obtain ⟨count, rfl⟩ : ∃ count : Nat, power = -count := ⟨power.natAbs, by omega⟩
      rw [neg_neg] at scaled
      rw [← Option.some.inj scaled]
      exact isFinite_div_power finite (by omega)
  | case4 value power large zero =>
      rw [scale, if_neg large, if_pos zero] at scaled
      rwa [← Option.some.inj scaled]
  | case5 value power large nonzero up =>
      rw [scale, if_neg large, if_neg nonzero, if_pos up] at scaled
      cases scaled
  | case6 value power large nonzero down ih =>
      rw [scale, if_neg large, if_neg nonzero, if_neg down] at scaled
      exact ih (isFinite_div_power finite le_rfl) scaled

/-- A number that a document can hold: an integer of a machine word, or a finite
double. -/
def Numeral.IsFinite : Numeral → Prop
  | .integer value => value.natAbs ≤ maxSignificand
  | .decimal value => value.isFinite
  | .tooLarge => True

/-- A significand of a machine word is scaled to a finite number, if to any. -/
theorem isFinite_scaledNumeral (negative : Bool) {significand : Nat}
    (fits : significand ≤ maxSignificand) (power : Int) :
    (scaledNumeral negative significand power).IsFinite := by
  have finite := isFinite_ofNat (fits.trans (by decide : maxSignificand ≤ 2 ^ 64))
  unfold scaledNumeral
  cases scaled : scale (Float.ofNat significand) power with
  | none => trivial
  | some value => exact isFinite_signed (isFinite_of_scale finite scaled) negative

/-- Digits with a point or an exponent make a finite number, if any. -/
theorem isFinite_decimalOf (negative : Bool) (whole fraction : List Char)
    (exponent : Option ExponentPart) : (decimalOf negative whole fraction exponent).IsFinite := by
  have fits := collect_le (collect_le (Nat.zero_le _) whole) fraction
  have zero : (signed negative 0.0).isFinite := isFinite_signed (by decide) negative
  cases exponent with
  | none => exact isFinite_scaledNumeral negative fits _
  | some part =>
      simp only [decimalOf]
      split_ifs with few down small
      · exact isFinite_scaledNumeral negative fits _
      · exact isFinite_scaledNumeral negative fits _
      · exact zero
      · trivial

/-- Digits without a point and exponent make a finite number, if any. -/
theorem isFinite_integerOf (negative : Bool) (whole : List Char) :
    (integerOf negative whole).IsFinite := by
  simp only [integerOf]
  split_ifs with minus special fits
  · exact isFinite_decimalOf true whole [] none
  · have small : valueOf whole ≤ 0x8000000000000000 := by omega
    rw [Numeral.IsFinite, Int.natAbs_neg, Int.natAbs_natCast]
    exact small.trans (by decide)
  · rw [Numeral.IsFinite, Int.natAbs_natCast]
    exact fits
  · exact isFinite_decimalOf false whole [] none

/-- A number that is scanned is finite. -/
theorem isFinite_of_scanMagnitude {negative : Bool} {text after : List Char} {numeral : Numeral}
    (found : scanMagnitude negative text = .ok (numeral, after)) : numeral.IsFinite := by
  obtain ⟨whole, _, fraction, _, exponent, -, -, -, -, -, rfl⟩ := scanMagnitude_eq_ok_iff.mp found
  split_ifs
  · exact isFinite_integerOf negative whole
  · exact isFinite_decimalOf negative whole fraction exponent

/-- A number that is scanned with its sign is finite. -/
theorem isFinite_of_scanNumber {text after : List Char} {numeral : Numeral}
    (found : scanNumber text = .ok (numeral, after)) : numeral.IsFinite := by
  rcases scanNumber_eq_ok found with ⟨_, rfl, magnitude⟩ | ⟨_, _, rfl, -, magnitude⟩
  · exact isFinite_of_scanMagnitude magnitude
  · exact isFinite_of_scanMagnitude magnitude

mutual

/-- Whether all numbers of a tree are finite. -/
inductive Node.IsFinite : Node → Prop
  | null : Node.IsFinite .null
  | bool (value : Bool) : Node.IsFinite (.bool value)
  | number {value : Numeral} (finite : value.IsFinite) : Node.IsFinite (.number value)
  | string (content : Except Breach String) : Node.IsFinite (.string content)
  | array {items : List Node} (each : ∀ item ∈ items, Node.IsFinite item)
      (ending : Option Breach) : Node.IsFinite (.array items ending)
  | object {members : List Member} (each : ∀ member ∈ members, Member.IsFinite member)
      (ending : Option Breach) : Node.IsFinite (.object members ending)
  | broken (fault : Fault) : Node.IsFinite (.broken fault)

/-- Whether all numbers in the value of a member are finite. -/
inductive Member.IsFinite : Member → Prop
  | keyed (key : Except Breach String) {value : Node} (finite : Node.IsFinite value) :
      Member.IsFinite (.keyed key value)
  | keyless (fault : Fault) (instead : Node) : Member.IsFinite (.keyless fault instead)

end

/-- A word has no numbers. -/
theorem isFinite_parseWord {value : Node} (finite : value.IsFinite) (word : String)
    (text : List Char) : (parseWord value word text).1.IsFinite := by
  unfold parseWord
  split
  · exact finite
  · exact .broken _

/-- A string has no numbers. -/
theorem isFinite_parseString (text : List Char) : (parseString text).1.IsFinite := by
  unfold parseString
  split
  · exact .string _
  · exact .broken _

/-- A number that is parsed is finite. -/
theorem isFinite_parseNumber (text : List Char) : (parseNumber text).1.IsFinite := by
  unfold parseNumber
  split
  · next found => exact .number (isFinite_of_scanNumber found)
  · exact .broken _

/-- Whatever is parsed with some fuel has finite numbers only. -/
structure ParsesFinite (fuel : Nat) : Prop where
  value : ∀ text, (parseValue fuel text).1.IsFinite
  array : ∀ text, (parseArray fuel text).1.IsFinite
  items : ∀ items text, (∀ item ∈ items, item.IsFinite) → (parseItems fuel items text).1.IsFinite
  object : ∀ text, (parseObject fuel text).1.IsFinite
  members : ∀ members text, (∀ member ∈ members, member.IsFinite) →
    (parseMembers fuel members text).1.IsFinite
  member : ∀ text, (parseMember fuel text).1.IsFinite

/-- Without fuel nothing is parsed. -/
theorem parsesFinite_zero : ParsesFinite 0 where
  value _ := .broken _
  array _ := .broken _
  items _ _ _ := .broken _
  object _ := .broken _
  members _ _ _ := .broken _
  member _ := .keyless _ _

/-- Items in reverse are finite if the last one and those before it are. -/
theorem forall_mem_reverse_cons {α : Type} {p : α → Prop} {last : α} {before : List α}
    (holds : p last) (each : ∀ item ∈ before, p item) :
    ∀ item ∈ (last :: before).reverse, p item := by
  intro item inside
  exact List.forall_mem_cons.mpr ⟨holds, each⟩ item (List.mem_reverse.mp inside)

namespace ParsesFinite

variable {fuel : Nat}

/-- One step of fuel more for a value. -/
theorem value_succ (less : ParsesFinite fuel) (text : List Char) :
    (parseValue (fuel + 1) text).1.IsFinite := by
  rw [parseValue]
  split
  · exact .broken _
  · split_ifs
    · exact less.object _
    · exact less.array _
    · exact isFinite_parseString _
    · exact isFinite_parseNumber _
    · exact isFinite_parseWord .null _ _
    · exact isFinite_parseWord (.bool _) _ _
    · exact isFinite_parseWord (.bool _) _ _
    · exact .broken _

/-- One step of fuel more for an array. -/
theorem array_succ (less : ParsesFinite fuel) (text : List Char) :
    (parseArray (fuel + 1) text).1.IsFinite := by
  rw [parseArray]
  split
  · exact .array (List.forall_mem_nil _) _
  · exact .array (List.forall_mem_nil _) _
  · exact less.items _ _ (List.forall_mem_nil _)

/-- One step of fuel more for items. -/
theorem items_succ (less : ParsesFinite fuel) (items : List Node) (text : List Char)
    (each : ∀ item ∈ items, item.IsFinite) : (parseItems (fuel + 1) items text).1.IsFinite := by
  have first := less.value text
  rw [parseItems]
  split
  · next parsed =>
      rw [parsed] at first
      exact .array (forall_mem_reverse_cons first each) _
  · next item rest parsed =>
      rw [parsed] at first
      have whole := forall_mem_reverse_cons first each
      split
      · exact .array whole _
      · exact less.items _ _ (List.forall_mem_cons.mpr ⟨first, each⟩)
      · exact .array whole _
      · exact .array whole _

/-- One step of fuel more for an object. -/
theorem object_succ (less : ParsesFinite fuel) (text : List Char) :
    (parseObject (fuel + 1) text).1.IsFinite := by
  rw [parseObject]
  split
  · exact .object (List.forall_mem_nil _) _
  · exact .object (List.forall_mem_nil _) _
  · exact less.members _ _ (List.forall_mem_nil _)

/-- One step of fuel more for members. -/
theorem members_succ (less : ParsesFinite fuel) (members : List Member) (text : List Char)
    (each : ∀ member ∈ members, member.IsFinite) :
    (parseMembers (fuel + 1) members text).1.IsFinite := by
  have first := less.member text
  rw [parseMembers]
  split
  · next parsed =>
      rw [parsed] at first
      exact .object (forall_mem_reverse_cons first each) _
  · next member rest parsed =>
      rw [parsed] at first
      have whole := forall_mem_reverse_cons first each
      split
      · exact .object whole _
      · exact less.members _ _ (List.forall_mem_cons.mpr ⟨first, each⟩)
      · exact .object whole _
      · exact .object whole _

/-- One step of fuel more for a member. -/
theorem member_succ (less : ParsesFinite fuel) (text : List Char) :
    (parseMember (fuel + 1) text).1.IsFinite := by
  rw [parseMember]
  split
  · exact .keyless _ _
  · split
    · exact .keyless _ _
    · split
      · exact .keyed _ (.broken _)
      · exact .keyed _ (less.value _)
      · exact .keyed _ (.broken _)
  · exact .keyless _ _

/-- One step of fuel more parses finite numbers again. -/
theorem succ (less : ParsesFinite fuel) : ParsesFinite (fuel + 1) where
  value := less.value_succ
  array := less.array_succ
  items := less.items_succ
  object := less.object_succ
  members := less.members_succ
  member := less.member_succ

end ParsesFinite

/-- All numbers of a parsed text are finite. -/
theorem isFinite_parse (text : List Char) : (parse text).1.IsFinite := by
  have all (fuel : Nat) : ParsesFinite fuel := by
    induction fuel with
    | zero => exact parsesFinite_zero
    | succ fuel less => exact less.succ
  exact (all _).value text

end LaserCut.Json
