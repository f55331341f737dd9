/-
# Jobs of short numbers

The reader of documents does not round correctly, so a double may come back as its
neighbour.  Numbers of few digits are safe: however often a job of such numbers is
written and read again, and whichever jobs take it, its strokes and rasters stay
the same bit for bit and the values of its passes stay equal.
-/

import Mathlib
import LaserCut.Proofs.Document.RoundTrip
import LaserCut.Proofs.Decimal.Exact
import LaserCut.Proofs.Decimal.Order
import LaserCut.Proofs.Decimal.SameNumber
import LaserCut.Proofs.Json.Decimals

namespace LaserCut

open Decimal

/-- A finite double is equal to itself. -/
theorem Decimal.beq_self {value : Float} (finite : value.isFinite) : (value == value) = true :=
  beq_refl (units_lt_of_isFinite finite).1

/-- Short numbers are finite. -/
theorem Decimal.IsShort.isFinite {value : Float} (short : IsShort value) : value.isFinite := by
  rcases short.cases with ⟨negative, rfl⟩ | ⟨_, _, negative, mantissa, exponent, _, _, _, _, _, parts⟩
  · cases negative <;> decide
  · exact (isFinite_iff value).mpr ⟨negative, mantissa, exponent, parts⟩

/-- What is written for a short number is parsed as that number. -/
theorem Decimal.IsShort.parses {value : Float} (short : IsShort value) :
    Json.Parses (.decimal value) (.number (.decimal value)) := by
  apply Json.Parses.number
  rw [Json.compact, Json.renderDecimal, if_pos short.isFinite]
  exact Json.scanNumber_render short

/-- Short numbers are read back. -/
theorem Decimal.IsShort.isExchanged {value : Float} (short : IsShort value) :
    IsExchanged value :=
  ⟨short.isFinite, Json.ReadsAs.decode ⟨_, short.parses, rfl⟩⟩

/-- Whole numbers of 63 bits are parsed as themselves. -/
theorem Json.parses_integer {value : Int} (small : value.natAbs ≤ 0x8000000000000000) :
    Parses (.integer value) (.number (.integer value)) := by
  apply Parses.number
  rw [compact]
  rcases lt_or_ge value 0 with negative | above
  · obtain ⟨n, rfl⟩ : ∃ n : Nat, value = -n := ⟨value.natAbs, by omega⟩
    exact scanNumber_renderInteger_neg (by omega) (by omega)
  · obtain ⟨n, rfl⟩ := Int.eq_ofNat_of_zero_le above
    refine scanNumber_renderInteger (le_trans ?_ (by decide : 0x8000000000000000 ≤ maxSignificand))
    simpa using small

/-- A double that denotes an integer has its sign and its magnitude. -/
theorem Decimal.whole?_eq_some {value : Float} {n : Int} (known : whole? value = some n) :
    ∃ negative magnitude mantissa exponent, n = signedInt negative magnitude ∧
      Binary.ofFloat value = .finite negative mantissa exponent ∧
      amount mantissa exponent = magnitude := by
  unfold whole? at known
  split at known
  · next negative mantissa exponent parts =>
      dsimp only at known
      by_cases divides : mantissa % (powerOfTwo exponent).2 = 0
      · rw [if_pos divides] at known
        refine ⟨negative, mantissa / (powerOfTwo exponent).2 * (powerOfTwo exponent).1, mantissa,
          exponent, (Option.some.inj known).symm, parts, ?_⟩
        exact amount_eq_natCast_iff.mpr ⟨divides, rfl⟩
      · rw [if_neg divides] at known
        cases known
  · cases known

/-- The integer that a double denotes is the double again, but for the sign of a
zero. -/
theorem Json.floatOfInt_beq {value : Float} {n : Int} (known : whole? value = some n)
    (small : n.natAbs < 2 * leadingBit) : (floatOfInt n == value) = true := by
  obtain ⟨negative, magnitude, mantissa, exponent, rfl, parts, same⟩ := whole?_eq_some known
  rw [natAbs_signedInt] at small
  have finite : value.isFinite := (isFinite_iff value).mpr ⟨_, _, _, parts⟩
  rcases magnitude.eq_zero_or_pos with rfl | positive
  · -- a zero, which has lost its sign
    have noMantissa : mantissa = 0 := by
      have unit : (2 : ℚ) ^ exponent ≠ 0 := by positivity
      rw [amount, Nat.cast_zero, mul_eq_zero] at same
      exact_mod_cast same.resolve_right unit
    subst noMantissa
    have zero : floatOfInt (signedInt negative 0) = 0.0 := by
      cases negative <;> rfl
    have parts_zero : Binary.ofFloat 0.0 = .finite false 0 (-1074) := by decide
    rw [zero]
    exact (isSameNumber_zero parts_zero parts).beq (by decide)
  · have rounded : IsRounded (Float.ofNat magnitude) false (magnitude * 10 ^ (0 : Int)) :=
      isRounded_nearest magnitude 0
    have itself := RoundsTo.of_amount (isCanonical_of_ofFloat parts).isAligned
    rw [zpow_zero, mul_one, ← same] at rounded
    have back : floatOfInt (signedInt negative magnitude) = value := by
      have sign : decide (signedInt negative magnitude < 0) = negative := by
        cases negative <;> simp [signedInt, positive]
      rw [floatOfInt, sign, natAbs_signedInt]
      exact eq_of_parts ((ofFloat_signed negative
        (rounded.parts itself (isCanonical_of_ofFloat parts).greatest)).trans parts.symm)
    rw [back]
    exact Decimal.beq_self finite

/-- A number that is equal to a short one is short. -/
theorem Decimal.IsShort.of_beq {value back : Float} (short : IsShort value)
    (same : (back == value) = true) : IsShort back := by
  rcases isSameNumber_of_beq same with equal | ⟨sign, _, zero, -⟩
  · have parts : Binary.ofFloat back = Binary.ofFloat value := by
      rw [ofFloat_eq, ofFloat_eq, equal]
    rwa [eq_of_parts parts]
  · have known : back = signed (isMinus sign) 0.0 := by
      apply eq_of_parts
      rw [ofFloat_eq, zero]
      cases sign <;> decide
    exact ⟨isMinus sign, 0, 0, by decide, by decide, known⟩

namespace Pass

/-- A short value of a pass is read back. -/
theorem isExchanged_of_isShort {value : Float} (short : IsShort value) : IsExchanged value := by
  refine ⟨short.isFinite, ?_⟩
  have decimal : Json.decode (readPassNumber 0) (Json.decimal value).toCompact = .ok value :=
    Json.ReadsAs.decode ⟨_, short.parses, rfl⟩
  simp only [ReadsBackAs, passNumberJson]
  cases whole : whole? value with
  | none => exact ⟨value, decimal, beq_self short.isFinite⟩
  | some n =>
      dsimp only
      split_ifs with small
      · have bound : firstPointedWhole ≤ 2 * leadingBit := by decide
        have parses := Json.parses_integer
          (small.le.trans (by decide : firstPointedWhole ≤ 0x8000000000000000))
        exact ⟨Json.floatOfInt n, Json.ReadsAs.decode ⟨_, parses, rfl⟩,
          Json.floatOfInt_beq whole (small.trans_le bound)⟩
      · exact ⟨value, decimal, beq_self short.isFinite⟩

/-- Whether a pass has the colors of another one and equal values. -/
structure IsSame (pass other : Pass) : Prop where
  colors : pass.colors = other.colors
  feedrate : pass.feedrate == other.feedrate
  intensity : pass.intensity == other.intensity

/-- Passes that are equal to a third are equal. -/
theorem IsSame.trans {pass middle other : Pass} (first : pass.IsSame middle)
    (second : middle.IsSame other) : pass.IsSame other :=
  ⟨first.colors.trans second.colors, beq_trans first.feedrate second.feedrate,
    beq_trans first.intensity second.intensity⟩

/-- Whether the values of a pass are short. -/
structure IsShort (pass : Pass) : Prop where
  feedrate : Decimal.IsShort pass.feedrate
  intensity : Decimal.IsShort pass.intensity

end Pass

/-- Whether the coordinates of a point are short. -/
structure Point.IsShort (point : Point Float) : Prop where
  x : Decimal.IsShort point.x
  y : Decimal.IsShort point.y

/-- Whether the numbers of a raster are short. -/
structure Raster.IsShort (raster : Raster) : Prop where
  position : raster.position.IsShort
  widthMm : Decimal.IsShort raster.widthMm
  heightMm : Decimal.IsShort raster.heightMm

namespace Job

/-- Whether all numbers of a job are short. -/
structure IsShort (job : Job) : Prop where
  strokes : ∀ entry ∈ job.colors.entries, ∀ path ∈ entry.2, ∀ point ∈ path, point.IsShort
  rasters : ∀ raster ∈ job.rasters, raster.IsShort
  passes : ∀ pass ∈ job.passes, pass.IsShort

/-- Short numbers are read back wherever they stand in a job. -/
theorem IsShort.isExchanged {job : Job} (short : job.IsShort) : job.IsExchanged where
  strokes entry inside path member point on :=
    have point := short.strokes entry inside path member point on
    ⟨point.x.isExchanged, point.y.isExchanged⟩
  rasters raster inside :=
    have raster := short.rasters raster inside
    ⟨⟨raster.position.x.isExchanged, raster.position.y.isExchanged⟩, raster.widthMm.isExchanged,
      raster.heightMm.isExchanged⟩
  passes pass inside :=
    have pass := short.passes pass inside
    ⟨Pass.isExchanged_of_isShort pass.feedrate, Pass.isExchanged_of_isShort pass.intensity⟩

/-- Whether a job has the strokes and rasters of another one and equal passes. -/
structure HasContentOf (job other : Job) : Prop where
  colors : job.colors = other.colors
  rasters : job.rasters = other.rasters
  passes : List.Forall₂ Pass.IsSame job.passes other.passes

/-- Whether a job is one that has taken the whole document of another. -/
def IsCopyOf (next job : Job) : Prop :=
  ∃ receiver : Job, receiver.setDocument (job.toJson []).toCompact = .ok next

/-- Any job takes the document of a job of short numbers and has its content. -/
theorem setDocument_of_isShort (receiver : Job) {job : Job} (valid : job.HasValidRasters)
    (short : job.IsShort) :
    ∃ next, receiver.setDocument (job.toJson []).toCompact = .ok next ∧ next.HasContentOf job := by
  obtain ⟨passes, agree, read⟩ := read_toJson valid short.isExchanged []
  refine ⟨_, setDocument_of_read valid short.isExchanged read rfl agree receiver, ?_, rfl, ?_⟩
  · apply Keyed.eq_of_entries
    change List.filter _ _ = _
    simp
  · exact agree.imp fun _ _ pass => ⟨pass.colors, pass.feedrate.2, pass.intensity.2⟩

/-- The content of a job of short numbers has short numbers. -/
theorem HasContentOf.isShort {next job : Job} (same : next.HasContentOf job)
    (short : job.IsShort) : next.IsShort := by
  constructor
  · rw [same.colors]
    exact short.strokes
  · rw [same.rasters]
    exact short.rasters
  · have each := short.passes
    have passes := same.passes
    generalize next.passes = copied at passes ⊢
    generalize job.passes = originals at passes each
    induction passes with
    | nil => exact fun pass inside => absurd inside List.not_mem_nil
    | cons first _ ih =>
        obtain ⟨values, others⟩ := List.forall_mem_cons.mp each
        exact List.forall_mem_cons.mpr ⟨⟨values.feedrate.of_beq first.feedrate,
          values.intensity.of_beq first.intensity⟩, ih others⟩

/-- The content of the content of a job is that of the job. -/
theorem HasContentOf.trans {last next job : Job} (second : last.HasContentOf next)
    (first : next.HasContentOf job) : last.HasContentOf job := by
  refine ⟨second.colors.trans first.colors, second.rasters.trans first.rasters, ?_⟩
  have outer := second.passes
  have inner := first.passes
  generalize last.passes = passes at outer ⊢
  generalize next.passes = middle at outer inner
  generalize job.passes = originals at inner ⊢
  induction outer generalizing originals with
  | nil => exact inner
  | cons pass _ ih =>
      cases inner with
      | cons original rest => exact .cons (pass.trans original) (ih _ rest)

/-- A job of short numbers has its own content. -/
theorem IsShort.hasContentOf_self {job : Job} (short : job.IsShort) : job.HasContentOf job := by
  refine ⟨rfl, rfl, List.forall₂_same.mpr fun pass inside => ?_⟩
  have values := short.passes pass inside
  exact ⟨rfl, Decimal.beq_self values.feedrate.isFinite, Decimal.beq_self values.intensity.isFinite⟩

/-- However often a job of short numbers is written and read again, whichever jobs
take it, its content stays the same, and every job takes it once more. -/
theorem hasContentOf_of_copies {job last : Job} (valid : job.HasValidRasters)
    (short : job.IsShort)
    (copies : Relation.ReflTransGen (fun job next => next.IsCopyOf job) job last) :
    last.HasContentOf job ∧ ∀ receiver : Job, ∃ next,
      receiver.setDocument (last.toJson []).toCompact = .ok next ∧ next.HasContentOf job := by
  have again {middle : Job} (same : middle.HasContentOf job) (receiver : Job) : ∃ next,
      receiver.setDocument (middle.toJson []).toCompact = .ok next ∧ next.HasContentOf job := by
    have rasters : middle.HasValidRasters := by
      rw [HasValidRasters, same.rasters]
      exact valid
    obtain ⟨next, taken, content⟩ := setDocument_of_isShort receiver rasters (same.isShort short)
    exact ⟨next, taken, content.trans same⟩
  have same : last.HasContentOf job := by
    induction copies with
    | refl => exact short.hasContentOf_self
    | tail _ step ih =>
        obtain ⟨receiver, taken⟩ := step
        obtain ⟨next, known, content⟩ := again ih receiver
        rw [taken] at known
        exact Except.ok.inj known ▸ content
  exact ⟨same, again same⟩

end Job

end LaserCut
