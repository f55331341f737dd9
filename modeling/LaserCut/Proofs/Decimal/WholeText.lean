/-
# The text of a whole number

On a grid as coarse as a power of ten that divides a whole number, the number
itself is the only point that reads back as it, and on a coarser one there is
none.  The shortest digits are therefore those of the number without the zeros
at its end, which are written out again.
-/

import Mathlib
import LaserCut.Machine.Limits
import LaserCut.Proofs.Decimal.Digits
import LaserCut.Proofs.Decimal.Whole

namespace LaserCut.Decimal

/-- A quarter of the last place of a shifted whole number. -/
theorem powerOfTwo_quarter (shift : Nat) :
    powerOfTwo (-(shift : Int) - 2) = (1, 4 * 2 ^ shift) := by
  have up : (-(shift : Int) - 2).toNat = 0 := by omega
  have down : (-(-(shift : Int) - 2)).toNat = 2 + shift := by omega
  simp only [powerOfTwo, up, down, Nat.pow_eq, pow_zero, pow_add]
  rfl

/-- No double reaches further down than half of the last place. -/
theorem roundingEnds_cases {mantissa : Nat} (positive : 0 < mantissa) (exponent : Int) :
    ∃ low, roundingEnds mantissa exponent = (low, 4 * mantissa + 2) ∧
      low < 4 * mantissa ∧ 4 * mantissa ≤ low + 2 := by
  refine ⟨_, rfl, ?_, ?_⟩ <;> split_ifs <;> omega

/-- How far a whole number lies above a grid of whole numbers, in quarters of
the last place: not at all, or at least a whole last place away from either of
its neighbours on the grid. -/
theorem exists_offset {n unit step : Nat} (unit_pos : 0 < unit) (step_pos : 0 < step) :
    ∃ offset, 4 * (n * unit) = n / step * (4 * unit) * step + offset ∧
      offset + 4 ≤ 4 * unit * step ∧ (step ∣ n ↔ offset = 0) ∧ (offset = 0 ∨ 4 ≤ offset) := by
  refine ⟨4 * unit * (n % step), ?_, ?_, ?_, ?_⟩
  · calc 4 * (n * unit) = (step * (n / step) + n % step) * (4 * unit) := by
          rw [Nat.div_add_mod]; ring
      _ = n / step * (4 * unit) * step + 4 * unit * (n % step) := by ring
  · calc 4 * unit * (n % step) + 4
        ≤ 4 * unit * (n % step) + 4 * unit := by omega
      _ = 4 * unit * (n % step + 1) := by ring
      _ ≤ 4 * unit * step := Nat.mul_le_mul_left _ (Nat.mod_lt _ step_pos)
  · rw [Nat.dvd_iff_mod_eq_zero]
    constructor
    · intro whole
      rw [whole, mul_zero]
    · intro whole
      exact (Nat.mul_eq_zero.mp whole).resolve_left (by positivity)
  · rcases Nat.eq_zero_or_pos (n % step) with whole | part
    · exact .inl (by rw [whole, mul_zero])
    · exact .inr (by nlinarith [Nat.mul_pos unit_pos part])

/-- A whole number lies on a grid of whole numbers, or both of its neighbours
there are too far away to read as it. -/
theorem gridPoint?_whole {n : Nat} (positive : 0 < n) (tie : Tie) (spacing : Nat) :
    gridPoint? tie (n * 2 ^ wholeShift n) (-wholeShift n) spacing =
      if 10 ^ spacing ∣ n then some (n / 10 ^ spacing) else none := by
  have down := powerOfTwo_quarter (wholeShift n)
  have fine : (-(spacing : Int)).toNat = 0 := by omega
  have coarse : (spacing : Int).toNat = spacing := Int.toNat_natCast spacing
  have unit_pos : 0 < 2 ^ wholeShift n := Nat.two_pow_pos _
  have step_pos : 0 < 10 ^ spacing := by positivity
  obtain ⟨low, ends, below, near⟩ :=
    roundingEnds_cases (Nat.mul_pos positive unit_pos) (-wholeShift n)
  generalize 2 ^ wholeShift n = unit at *
  generalize step_eq : 10 ^ spacing = step at *
  have lower : 4 * (n * unit) / (4 * unit * step) = n / step := by
    rw [mul_left_comm, ← Nat.mul_div_mul_left n step (Nat.mul_pos four_pos unit_pos)]
    congr 1
    ring
  have next : (n / step + 1) * (4 * unit) * step =
      n / step * (4 * unit) * step + 4 * unit * step := by ring
  simp only [gridPoint?, down, ends, fine, coarse, Nat.pow_eq, pow_zero, mul_one, one_mul,
    step_eq, lower, next]
  obtain ⟨offset, division, beyond, divides, outside⟩ := exists_offset (n := n) unit_pos step_pos
  simp only [divides]
  generalize n / step * (4 * unit) * step = point at *
  generalize 4 * unit * step = distance at *
  generalize 4 * (n * unit) = value at *
  subst division
  have above : (decide (low ≤ point + distance) && decide (point + distance ≤ point + offset + 2)) =
      false := by simp; omega
  have strictly_above :
      (decide (low < point + distance) && decide (point + distance < point + offset + 2)) =
      false := by simp; omega
  rcases outside with rfl | apart
  · have here : (decide (low ≤ point) && decide (point ≤ point + 0 + 2)) = true := by simp; omega
    have strictly_here : (decide (low < point) && decide (point < point + 0 + 2)) = true := by
      simp; omega
    simp only [above, strictly_above, here, strictly_here, ite_self, if_true]
  · have beneath : (decide (low ≤ point) && decide (point ≤ point + offset + 2)) = false := by
      simp; omega
    have strictly_beneath :
        (decide (low < point) && decide (point < point + offset + 2)) = false := by
      simp; omega
    have nonzero : ¬ offset = 0 := by omega
    simp only [above, strictly_above, beneath, strictly_beneath, ite_self, if_neg nonzero]

/-- Zeros that are dropped at the end of a digit list can be put back. -/
theorem dropTrailingZeros_append (digits : List Char) :
    dropTrailingZeros digits ++
      List.replicate (digits.length - (dropTrailingZeros digits).length) '0' = digits := by
  have zeros : ∀ c ∈ digits.reverse.takeWhile (· == '0'), c = '0' := by
    intro c mem
    simpa using List.mem_takeWhile_imp mem
  have split : digits.reverse.takeWhile (· == '0') ++ digits.reverse.dropWhile (· == '0') =
      digits.reverse := List.takeWhile_append_dropWhile
  have count : digits.length - (dropTrailingZeros digits).length =
      (digits.reverse.takeWhile (· == '0')).length := by
    have lengths := congrArg List.length split
    simp only [List.length_append, List.length_reverse] at lengths
    simp only [dropTrailingZeros, List.length_reverse]
    omega
  rw [count, ← List.eq_replicate_of_mem zeros, dropTrailingZeros]
  calc (digits.reverse.dropWhile (· == '0')).reverse ++ digits.reverse.takeWhile (· == '0')
      = (digits.reverse.dropWhile (· == '0')).reverse ++
          (digits.reverse.takeWhile (· == '0')).reverse := by
        rw [List.eq_replicate_of_mem zeros, List.reverse_replicate]
    _ = digits := by rw [← List.reverse_append, split, List.reverse_reverse]

/-- The power of ten of the first digit of a whole number. -/
theorem leadingPower_whole (n : Nat) (positive : 0 < n) :
    leadingPower (n * 2 ^ wholeShift n) (2 ^ wholeShift n) = (digitsOf n).length - 1 := by
  have unit : 0 < 2 ^ wholeShift n := Nat.two_pow_pos _
  rw [leadingPower, if_pos (Nat.le_mul_of_pos_left _ positive), Nat.mul_div_cancel _ unit]

/-- Digits that were found on a grid of whole numbers, written out. -/
theorem writtenOut_gridPoint {n spacing : Nat} (positive : 0 < n) (divides : 10 ^ spacing ∣ n) :
    writtenOut false ⟨dropTrailingZeros (digitsOf (n / 10 ^ spacing)),
      (spacing : Int) + (digitsOf (n / 10 ^ spacing)).length - 1⟩ = digitsOf n := by
  obtain ⟨point, rfl⟩ := divides
  have point_pos : 0 < point := Nat.pos_of_mul_pos_left positive
  rw [Nat.mul_div_cancel_left _ (by positivity), mul_comm, digitsOf_mul_ten_pow point_pos]
  have padded := dropTrailingZeros_append (digitsOf point)
  have shorter := congrArg List.length padded
  rw [List.length_append] at shorter
  have length_pos : 0 < (digitsOf point).length := List.length_pos_iff.mpr (digitsOf_ne_nil point)
  have power : (spacing : Int) + (digitsOf point).length - 1 =
      ((spacing + (digitsOf point).length - 1 : Nat) : Int) := by omega
  have places : spacing + (digitsOf point).length - 1 + 1 -
      (dropTrailingZeros (digitsOf point)).length =
        (digitsOf point).length - (dropTrailingZeros (digitsOf point)).length + spacing := by omega
  have fits : (dropTrailingZeros (digitsOf point)).length ≤
      spacing + (digitsOf point).length - 1 + 1 := by omega
  have whole : ¬ ((spacing + (digitsOf point).length - 1 : Nat) : Int) < 0 := by omega
  simp only [writtenOut, power, if_neg whole, Int.toNat_natCast, if_pos fits, places,
    List.replicate_add, ← List.append_assoc, padded]
  rfl

/-- A search through the first numbers ends at the first hit. -/
theorem findSome?_range_of_hit {α : Type} {search : Nat → Option α} {count hit : Nat}
    {outcome : Option α} (result : (List.range count).findSome? search = outcome)
    (inside : hit < count) (found : (search hit).isSome) :
    ∃ reached ≤ hit, outcome = search reached ∧ (search reached).isSome ∧
      ∀ earlier < reached, search earlier = none := by
  have listed : hit ∈ List.range count := List.mem_range.mpr inside
  cases outcome with
  | none =>
      rw [List.findSome?_eq_none_iff.mp result hit listed] at found
      cases found
  | some value =>
      obtain ⟨before, reached, after, order, here, missed⟩ := List.findSome?_eq_some_iff.mp result
      have sorted := @List.pairwise_lt_range count
      rw [order, List.pairwise_append, List.pairwise_cons] at sorted
      have early : ∀ earlier < reached, search earlier = none := by
        intro earlier less
        have bound : reached < count := List.mem_range.mp (by simp [order])
        have member : earlier ∈ List.range count := List.mem_range.mpr (less.trans bound)
        rw [order, List.mem_append, List.mem_cons] at member
        rcases member with front | rfl | back
        · exact missed earlier front
        · exact absurd less (lt_irrefl _)
        · exact absurd less (sorted.2.1.1 earlier back).not_gt
      refine ⟨reached, ?_, here.symm, by rw [here]; rfl, early⟩
      by_contra late
      rw [early hit (not_le.mp late)] at found
      cases found

/-- The shortest digits of a whole number, written out, are its digits. -/
theorem writtenOut_shortest_whole {n : Nat} (positive : 0 < n) (small : n < 2 * leadingBit)
    (tie : Tie) :
    writtenOut false (shortest tie (n * 2 ^ wholeShift n) (-wholeShift n)) = digitsOf n := by
  have parts : powerOfTwo (-(wholeShift n : Int)) = (1, 2 ^ wholeShift n) := by
    simp [powerOfTwo]
  have length_pos : 0 < (digitsOf n).length := List.length_pos_iff.mpr (digitsOf_ne_nil n)
  have length_le : (digitsOf n).length ≤ 16 :=
    length_digitsOf_le (by decide) (by simp only [leadingBit] at small; omega)
  have grid {count : Nat} (reached : count ≤ (digitsOf n).length - 1) :
      ((digitsOf n).length : Int) - 1 - count = ((digitsOf n).length - 1 - count : Nat) := by
    omega
  simp only [shortest, parts, mul_one, leadingPower_whole n positive]
  -- the grid of the whole numbers itself is tried, so no finer one is reached
  generalize search : List.findSome? _ (List.range 17) = outcome
  obtain ⟨reached, early, rfl, found, -⟩ := findSome?_range_of_hit search
    (show (digitsOf n).length - 1 < 17 by omega) (by
      rw [grid le_rfl, Nat.sub_self, gridPoint?_whole positive, pow_zero, if_pos (one_dvd n)]
      rfl)
  rw [grid early, gridPoint?_whole positive] at found ⊢
  split_ifs at found ⊢ with divides
  · exact writtenOut_gridPoint positive divides
  · cases found

end LaserCut.Decimal

namespace LaserCut.Machine

open Decimal

/-- The text of a small whole number in a machine program is its digits. -/
theorem numberText_ofNat {n : Nat} (small : n < 2 * leadingBit) :
    numberText (Float.ofNat n) = digitsOf n := by
  by_cases zero : n = 0
  · subst zero
    decide
  · have positive : 0 < n := Nat.pos_of_ne_zero zero
    have nonzero : n * 2 ^ wholeShift n ≠ 0 := by positivity
    have text := writtenOut_shortest_whole positive small .up
    simp only [numberText, Layout.render, ofFloat_ofNat positive small, significant,
      if_neg nonzero]
    exact text

end LaserCut.Machine
