/-
# The shortest digits read back

The search for the shortest digits goes from one digit to seventeen, and on a grid
of seventeen digits one of the two neighbours of a double is near enough.  So what
is written stands for a number that rounds to the double, whichever layout writes
it.  A decimal fraction of fifteen digits is far enough from all others of its kind
to be written with no more digits than it has.
-/

import Mathlib
import LaserCut.Proofs.Decimal.Layout
import LaserCut.Proofs.Decimal.Nearest
import LaserCut.Proofs.Decimal.Places
import LaserCut.Proofs.Decimal.Scientific
import LaserCut.Proofs.Decimal.WholeText

namespace LaserCut.Decimal

/-- A positive number lies between the powers of ten that its length gives. -/
theorem pow_length_digitsOf {n : Nat} (positive : 0 < n) :
    10 ^ ((digitsOf n).length - 1) ≤ n ∧ n < 10 ^ (digitsOf n).length := by
  have nonempty : 0 < (digitsOf n).length := List.length_pos_of_ne_nil (digitsOf_ne_nil n)
  obtain ⟨below, single | above⟩ := (length_digitsOf_iff nonempty).mp rfl
  · rw [single]
    exact ⟨positive, by rwa [single] at below⟩
  · exact ⟨above, below⟩

/-- A positive fraction lies between its power of ten and the next one. -/
theorem leadingPower_spec {numerator denominator : Nat} (positive : 0 < numerator)
    (nonzero : 0 < denominator) :
    (10 : ℚ) ^ leadingPower numerator denominator ≤ numerator / denominator ∧
      (numerator / denominator : ℚ) < 10 ^ (leadingPower numerator denominator + 1) := by
  have above : (0 : ℚ) < numerator := by exact_mod_cast positive
  have below : (0 : ℚ) < denominator := by exact_mod_cast nonzero
  unfold leadingPower
  dsimp only
  split_ifs with whole reached
  · have floor : 0 < numerator / denominator := Nat.div_pos whole nonzero
    obtain ⟨low, high⟩ := pow_length_digitsOf floor
    have length : 1 ≤ (digitsOf (numerator / denominator)).length :=
      List.length_pos_of_ne_nil (digitsOf_ne_nil _)
    have low' := (Nat.le_div_iff_mul_le nonzero).mp low
    have high' := (Nat.div_lt_iff_lt_mul nonzero).mp high
    rw [sub_add_cancel, zpow_natCast, ← Nat.cast_one, ← Nat.cast_sub length, zpow_natCast,
      le_div_iff₀ below, div_lt_iff₀ below]
    exact ⟨by exact_mod_cast low', by exact_mod_cast high'⟩
  · have floor : 0 < denominator / numerator := Nat.div_pos (by omega) positive
    obtain ⟨low, high⟩ := pow_length_digitsOf floor
    have length : 1 ≤ (digitsOf (denominator / numerator)).length :=
      List.length_pos_of_ne_nil (digitsOf_ne_nil _)
    have low' := (Nat.le_div_iff_mul_le positive).mp low
    generalize (digitsOf (denominator / numerator)).length = places at *
    -- the fraction is a power of ten itself
    have power : (numerator : ℚ) / denominator = 10 ^ (1 - (places : Int)) := by
      have same : denominator = 10 ^ (places - 1) * numerator := by
        refine le_antisymm ?_ low'
        rw [mul_comm]
        exact reached
      have order : 1 - (places : Int) = -((places - 1 : Nat) : Int) := by omega
      rw [order, zpow_neg, zpow_natCast, same]
      push_cast
      field_simp
    rw [power]
    exact ⟨le_rfl, zpow_lt_zpow_right₀ (by norm_num) (by omega)⟩
  · have floor : 0 < denominator / numerator := Nat.div_pos (by omega) positive
    obtain ⟨-, high⟩ := pow_length_digitsOf floor
    have length : 1 ≤ (digitsOf (denominator / numerator)).length :=
      List.length_pos_of_ne_nil (digitsOf_ne_nil _)
    have high' := (Nat.div_lt_iff_lt_mul positive).mp high
    generalize (digitsOf (denominator / numerator)).length = places at *
    have order : -(places : Int) + 1 = -((places - 1 : Nat) : Int) := by omega
    rw [order, zpow_neg, zpow_neg, zpow_natCast, zpow_natCast, le_div_iff₀ below,
      inv_mul_le_iff₀ (by positivity), div_lt_iff₀ below, ← div_eq_inv_mul,
      lt_div_iff₀ (by positivity)]
    exact ⟨by exact_mod_cast high'.le, by exact_mod_cast not_le.mp reached⟩

/-- A count of quarters of the last place and a count of grid units, to the same
unit. -/
def quartersOn (exponent spacing : Int) (count : Nat) : Nat :=
  count * (powerOfTwo (exponent - 2)).1 * 10 ^ (-spacing).toNat

/-- The number of a grid point to the unit of `quartersOn`. -/
def unitsOn (exponent spacing : Int) (point : Nat) : Nat :=
  point * (powerOfTwo (exponent - 2)).2 * 10 ^ spacing.toNat

/-- Quarters of the last place and points of a grid are counted in one unit. -/
theorem exists_scale (exponent spacing : Int) :
    ∃ scale : ℚ, 0 < scale ∧
      (∀ count, (quartersOn exponent spacing count : ℚ) = amount count (exponent - 2) * scale) ∧
      ∀ point, (unitsOn exponent spacing point : ℚ) = point * 10 ^ spacing * scale := by
  have down : (0 : ℚ) < (powerOfTwo (exponent - 2)).2 := by
    exact_mod_cast Nat.two_pow_pos _
  have ten : (10 : ℚ) ^ spacing * 10 ^ (-spacing).toNat = 10 ^ spacing.toNat := by
    rw [← zpow_natCast, ← zpow_natCast, ← zpow_add₀ (by norm_num)]
    congr 1
    omega
  refine ⟨(powerOfTwo (exponent - 2)).2 * 10 ^ (-spacing).toNat, by positivity, ?_, ?_⟩
  · intro count
    rw [quartersOn, amount_eq_div]
    push_cast
    field_simp
  · intro point
    rw [unitsOn]
    push_cast
    rw [← ten]
    ring

/-- A magnitude in quarters of its last place. -/
theorem amount_quarters (mantissa : Nat) (exponent : Int) :
    amount (4 * mantissa) (exponent - 2) = amount mantissa exponent := by
  have shifted := amount_shifted mantissa (exponent - 2) 2
  rw [mul_comm, show (4 : Nat) = 2 ^ 2 from rfl, ← shifted]
  congr 1
  ring

/-- A rational rounds to a magnitude if it lies between the ends of its interval,
which belong to it if the mantissa is even. -/
theorem roundsTo_iff {exact : ℚ} {mantissa : Nat} {exponent : Int}
    (aligned : IsAligned mantissa exponent) (positive : 0 < mantissa) :
    RoundsTo exact mantissa exponent ↔
      if mantissa % 2 = 0 then
        amount (roundingEnds mantissa exponent).1 (exponent - 2) ≤ exact ∧
          exact ≤ amount (roundingEnds mantissa exponent).2 (exponent - 2)
      else
        amount (roundingEnds mantissa exponent).1 (exponent - 2) < exact ∧
          exact < amount (roundingEnds mantissa exponent).2 (exponent - 2) := by
  have few : gapBelow mantissa exponent ≤ 4 * mantissa := by
    have := gapBelow_le_two mantissa exponent
    omega
  have low : amount (roundingEnds mantissa exponent).1 (exponent - 2) =
      amount mantissa exponent - gapBelow mantissa exponent * 2 ^ (exponent - 2) := by
    rw [← amount_quarters mantissa exponent]
    change amount (4 * mantissa - gapBelow mantissa exponent) _ = _
    rw [amount, amount, Nat.cast_sub few, sub_mul]
  have high : amount (roundingEnds mantissa exponent).2 (exponent - 2) =
      amount mantissa exponent + 2 ^ (exponent - 1) := by
    rw [← amount_quarters mantissa exponent, (RoundsTo.half_unit exponent).2]
    change amount (4 * mantissa + 2) _ = _
    rw [amount, amount]
    push_cast
    ring
  rw [low, high]
  constructor
  · intro rounds
    split_ifs with even
    · exact ⟨rounds.low, rounds.high⟩
    · exact ⟨lt_of_le_of_ne rounds.low fun h => even (rounds.even (.inl h.symm)),
        lt_of_le_of_ne rounds.high fun h => even (rounds.even (.inr h))⟩
  · intro between
    split_ifs at between with even
    · exact ⟨aligned, between.1, between.2, fun _ => even⟩
    · exact ⟨aligned, between.1.le, between.2.le, fun ends =>
        (ends.elim (fun h => between.1.ne' h) fun h => between.2.ne h).elim⟩

/-- Whether a grid point lies in the interval of a magnitude. -/
def isReadBack (mantissa : Nat) (exponent spacing : Int) (point : Nat) : Bool :=
  let low := quartersOn exponent spacing (roundingEnds mantissa exponent).1
  let high := quartersOn exponent spacing (roundingEnds mantissa exponent).2
  if mantissa % 2 = 0 then
    low ≤ unitsOn exponent spacing point && unitsOn exponent spacing point ≤ high
  else low < unitsOn exponent spacing point && unitsOn exponent spacing point < high

/-- The grid point below a magnitude. -/
def gridFloor (mantissa : Nat) (exponent spacing : Int) : Nat :=
  quartersOn exponent spacing (4 * mantissa) / unitsOn exponent spacing 1

/-- The neighbour that is taken, by which of the two read back and which is nearer. -/
def neighbour? (tie : Tie) (lower : Nat) (here next : Bool) (nearer : Ordering) : Option Nat :=
  match here, next with
  | false, false => none
  | true, false => some lower
  | false, true => some (lower + 1)
  | true, true =>
      match nearer with
      | .lt => some lower
      | .gt => some (lower + 1)
      | .eq => some (if tie = .toEven ∧ lower % 2 = 0 then lower else lower + 1)

/-- The search on a grid is one for the neighbour that is taken. -/
theorem gridPoint?_eq (tie : Tie) (mantissa : Nat) (exponent spacing : Int) :
    let lower := gridFloor mantissa exponent spacing
    gridPoint? tie mantissa exponent spacing =
      neighbour? tie lower (isReadBack mantissa exponent spacing lower)
        (isReadBack mantissa exponent spacing (lower + 1))
        (compare (quartersOn exponent spacing (4 * mantissa) - unitsOn exponent spacing lower)
          (unitsOn exponent spacing (lower + 1) - quartersOn exponent spacing (4 * mantissa))) :=
  rfl

/-- One of the neighbours on a grid is taken if it reads back, and none if neither
does. -/
theorem gridPoint?_cases (tie : Tie) (mantissa : Nat) (exponent spacing : Int) :
    let lower := gridFloor mantissa exponent spacing
    match gridPoint? tie mantissa exponent spacing with
    | some point => (point = lower ∨ point = lower + 1) ∧
        isReadBack mantissa exponent spacing point = true
    | none => isReadBack mantissa exponent spacing lower = false ∧
        isReadBack mantissa exponent spacing (lower + 1) = false := by
  intro lower
  rw [gridPoint?_eq]
  cases here : isReadBack mantissa exponent spacing lower <;>
    cases next : isReadBack mantissa exponent spacing (lower + 1) <;> dsimp only [neighbour?]
  · exact ⟨rfl, rfl⟩
  · exact ⟨.inr rfl, next⟩
  · exact ⟨.inl rfl, here⟩
  · -- both read back, so the nearer one is taken
    generalize nearer : compare (_ : Nat) _ = order
    cases order with
    | lt => exact ⟨.inl rfl, here⟩
    | gt => exact ⟨.inr rfl, next⟩
    | eq =>
        dsimp only
        split_ifs
        · exact ⟨.inl rfl, here⟩
        · exact ⟨.inr rfl, next⟩

/-- What is read back are the grid points that round to the magnitude. -/
theorem isReadBack_iff {mantissa : Nat} {exponent : Int} (aligned : IsAligned mantissa exponent)
    (positive : 0 < mantissa) (spacing : Int) (point : Nat) :
    isReadBack mantissa exponent spacing point = true ↔
      RoundsTo (point * 10 ^ spacing) mantissa exponent := by
  obtain ⟨scale, positive_scale, quarters, units⟩ := exists_scale exponent spacing
  rw [roundsTo_iff aligned positive, isReadBack]
  split_ifs
  all_goals
    rw [Bool.and_eq_true, decide_eq_true_iff, decide_eq_true_iff]
    first
      | rw [← @Nat.cast_le ℚ, ← @Nat.cast_le ℚ]
      | rw [← @Nat.cast_lt ℚ, ← @Nat.cast_lt ℚ]
    rw [quarters, quarters, units]
    simp only [mul_le_mul_iff_left₀ positive_scale, mul_lt_mul_iff_left₀ positive_scale]

/-- The grid point below a magnitude and the next one have it between them. -/
theorem gridFloor_spec (mantissa : Nat) (exponent spacing : Int) :
    (gridFloor mantissa exponent spacing * 10 ^ spacing : ℚ) ≤ amount mantissa exponent ∧
      amount mantissa exponent < (gridFloor mantissa exponent spacing + 1) * 10 ^ spacing := by
  obtain ⟨scale, positive_scale, quarters, units⟩ := exists_scale exponent spacing
  have unit : 0 < unitsOn exponent spacing 1 := by
    rw [unitsOn, one_mul]
    exact Nat.mul_pos (Nat.two_pow_pos _) (by positivity)
  have multiple (point : Nat) : unitsOn exponent spacing point =
      point * unitsOn exponent spacing 1 := by
    rw [unitsOn, unitsOn]
    ring
  have low : unitsOn exponent spacing (gridFloor mantissa exponent spacing) ≤
      quartersOn exponent spacing (4 * mantissa) := by
    rw [multiple]
    exact Nat.div_mul_le_self _ _
  have high : quartersOn exponent spacing (4 * mantissa) <
      unitsOn exponent spacing (gridFloor mantissa exponent spacing + 1) := by
    rw [multiple]
    exact Nat.lt_mul_of_div_lt (Nat.lt_succ_self _) unit
  rw [← @Nat.cast_le ℚ, quarters, units, amount_quarters,
    mul_le_mul_iff_left₀ positive_scale] at low
  rw [← @Nat.cast_lt ℚ, quarters, units, amount_quarters,
    mul_lt_mul_iff_left₀ positive_scale] at high
  exact ⟨low, by exact_mod_cast high⟩

/-- A grid point that is taken rounds to the magnitude and is one of its neighbours. -/
theorem roundsTo_of_gridPoint? {tie : Tie} {mantissa point : Nat} {exponent spacing : Int}
    (aligned : IsAligned mantissa exponent) (positive : 0 < mantissa)
    (found : gridPoint? tie mantissa exponent spacing = some point) :
    RoundsTo (point * 10 ^ spacing) mantissa exponent ∧
      point ≤ gridFloor mantissa exponent spacing + 1 := by
  have cases := gridPoint?_cases tie mantissa exponent spacing
  rw [found] at cases
  obtain ⟨neighbour, read⟩ := cases
  exact ⟨(isReadBack_iff aligned positive spacing point).mp read, by omega⟩

namespace RoundsTo

variable {exact nearer : ℚ} {mantissa : Nat} {exponent : Int}

/-- What lies between a rational and the magnitude above it rounds to that magnitude
as well. -/
theorem of_le (rounds : RoundsTo exact mantissa exponent) (above : exact ≤ nearer)
    (below : nearer ≤ amount mantissa exponent) : RoundsTo nearer mantissa exponent := by
  have half : (0 : ℚ) < 2 ^ (exponent - 1) := by positivity
  refine ⟨rounds.aligned, rounds.low.trans above, by linarith, fun ends => ?_⟩
  rcases ends with low | high
  · exact rounds.even (.inl (le_antisymm (low ▸ above) rounds.low))
  · linarith

/-- What lies between a rational and the magnitude below it rounds to that magnitude
as well. -/
theorem of_ge (rounds : RoundsTo exact mantissa exponent) (below : nearer ≤ exact)
    (above : amount mantissa exponent ≤ nearer) : RoundsTo nearer mantissa exponent := by
  have gap := gapBelow_pos mantissa exponent
  have quarter : (0 : ℚ) < gapBelow mantissa exponent * 2 ^ (exponent - 2) := by positivity
  refine ⟨rounds.aligned, by linarith, below.trans rounds.high, fun ends => ?_⟩
  rcases ends with low | high
  · linarith
  · exact rounds.even (.inr (le_antisymm rounds.high (high ▸ below)))

end RoundsTo

/-- A grid with any point that rounds to a magnitude has one that is taken. -/
theorem isSome_gridPoint? (tie : Tie) {mantissa point : Nat} {exponent spacing : Int}
    (positive : 0 < mantissa) (rounds : RoundsTo (point * 10 ^ spacing) mantissa exponent) :
    (gridPoint? tie mantissa exponent spacing).isSome := by
  have cases := gridPoint?_cases tie mantissa exponent spacing
  obtain ⟨low, high⟩ := gridFloor_spec mantissa exponent spacing
  have unit : (0 : ℚ) < 10 ^ spacing := by positivity
  cases search : gridPoint? tie mantissa exponent spacing with
  | some => rfl
  | none =>
      rw [search] at cases
      obtain ⟨first, second⟩ := cases
      rcases le_or_gt point (gridFloor mantissa exponent spacing) with below | above
      · have inside : RoundsTo (gridFloor mantissa exponent spacing * 10 ^ spacing) mantissa
            exponent := by
          refine rounds.of_le ?_ low
          gcongr
        rw [← isReadBack_iff rounds.aligned positive, first] at inside
        cases inside
      · have next : gridFloor mantissa exponent spacing + 1 ≤ point := above
        have inside : RoundsTo ((gridFloor mantissa exponent spacing + 1 : Nat) * 10 ^ spacing)
            mantissa exponent := by
          refine rounds.of_ge ?_ ?_
          · gcongr
          · push_cast
            exact high.le
        rw [← isReadBack_iff rounds.aligned positive, second] at inside
        cases inside

/-- A grid whose step is shorter than the interval of a magnitude has a point in it. -/
theorem exists_roundsTo_of_step {mantissa : Nat} {exponent spacing : Int}
    (aligned : IsAligned mantissa exponent)
    (step : (10 : ℚ) ^ spacing < (gapBelow mantissa exponent + 2) * 2 ^ (exponent - 2)) :
    ∃ point : Nat, RoundsTo (point * 10 ^ spacing) mantissa exponent := by
  obtain ⟨low, high⟩ := gridFloor_spec mantissa exponent spacing
  have half := (RoundsTo.half_unit exponent).2
  have unit : (0 : ℚ) < 2 ^ (exponent - 2) := by positivity
  by_cases near : amount mantissa exponent - gridFloor mantissa exponent spacing * 10 ^ spacing <
      gapBelow mantissa exponent * 2 ^ (exponent - 2)
  · refine ⟨gridFloor mantissa exponent spacing, aligned, by linarith, by linarith, ?_⟩
    rintro (low_end | high_end) <;> linarith
  · refine ⟨gridFloor mantissa exponent spacing + 1, ?_⟩
    rw [Nat.cast_add_one]
    -- the step leads from below the lower end to inside of the upper one
    have above : (gridFloor mantissa exponent spacing + 1) * 10 ^ spacing <
        amount mantissa exponent + 2 ^ (exponent - 1) := by linarith
    have below : (0 : ℚ) ≤ gapBelow mantissa exponent * 2 ^ (exponent - 2) := by positivity
    refine ⟨aligned, by linarith, above.le, ?_⟩
    rintro (low_end | high_end) <;> linarith

/-- One of the neighbours on a grid of seventeen digits is near enough. -/
theorem exists_roundsTo_of_fine {mantissa : Nat} {exponent spacing : Int}
    (aligned : IsAligned mantissa exponent)
    (fine : (10 : ℚ) ^ spacing * 10 ^ 16 ≤ amount mantissa exponent) :
    ∃ point : Nat, RoundsTo (point * 10 ^ spacing) mantissa exponent := by
  refine exists_roundsTo_of_step aligned ?_
  obtain ⟨whole, half⟩ := RoundsTo.half_unit exponent
  have unit : (0 : ℚ) < 2 ^ (exponent - 2) := by positivity
  have small : (mantissa : ℚ) < 2 * leadingBit := by exact_mod_cast aligned.small
  rw [amount, whole, half] at fine
  unfold gapBelow
  split_ifs with power
  · rw [power.1, leadingBit] at fine
    push_cast at fine ⊢
    linarith
  · rw [leadingBit] at small
    push_cast at small ⊢
    nlinarith

/-- The power of ten of the first digit of a magnitude. -/
def leadingOf (mantissa : Nat) (exponent : Int) : Int :=
  leadingPower (mantissa * (powerOfTwo exponent).1) (powerOfTwo exponent).2

/-- A magnitude lies between its power of ten and the next one. -/
theorem leadingOf_spec {mantissa : Nat} (positive : 0 < mantissa) (exponent : Int) :
    (10 : ℚ) ^ leadingOf mantissa exponent ≤ amount mantissa exponent ∧
      amount mantissa exponent < 10 ^ (leadingOf mantissa exponent + 1) := by
  rw [amount_eq_div]
  exact leadingPower_spec (Nat.mul_pos positive (Nat.two_pow_pos _)) (Nat.two_pow_pos _)

/-- Significant digits on a grid. -/
def onGrid (spacing : Int) (point : Nat) : Significant :=
  ⟨dropTrailingZeros (digitsOf point), spacing + (digitsOf point).length - 1⟩

/-- The shortest digits are those of a point on the coarsest grid that has one, up to
seventeen digits. -/
theorem shortest_eq (tie : Tie) {mantissa : Nat} {exponent : Int}
    (aligned : IsAligned mantissa exponent) (positive : 0 < mantissa) :
    ∃ spacing point, gridPoint? tie mantissa exponent spacing = some point ∧
      shortest tie mantissa exponent = onGrid spacing point ∧
      spacing ≤ leadingOf mantissa exponent ∧ leadingOf mantissa exponent ≤ spacing + 16 ∧
      ∀ fine ≤ leadingOf mantissa exponent, (gridPoint? tie mantissa exponent fine).isSome →
        fine ≤ spacing := by
  obtain ⟨low, -⟩ := leadingOf_spec positive exponent
  have finest : (gridPoint? tie mantissa exponent (leadingOf mantissa exponent - 16)).isSome := by
    have fine : (10 : ℚ) ^ (leadingOf mantissa exponent - 16) * 10 ^ 16 ≤
        amount mantissa exponent := by
      rw [zpow_sub₀ (by norm_num)]
      refine le_trans (le_of_eq ?_) low
      field_simp
    obtain ⟨point, rounds⟩ := exists_roundsTo_of_fine aligned fine
    exact isSome_gridPoint? tie positive rounds
  generalize outcome : shortest tie mantissa exponent = number
  change ((List.range 17).findSome? fun count =>
    (gridPoint? tie mantissa exponent (leadingOf mantissa exponent - (count : Nat))).map
      (onGrid (leadingOf mantissa exponent - (count : Nat)))).getD ⟨['0'], 0⟩ = number at outcome
  generalize search : List.findSome? _ _ = result at outcome
  obtain ⟨reached, early, taken, hits, missed⟩ :=
    findSome?_range_of_hit search (by decide : 16 < 17) (by simpa using finest)
  rw [Option.isSome_map, Option.isSome_iff_exists] at hits
  obtain ⟨point, found⟩ := hits
  rw [found] at taken
  refine ⟨leadingOf mantissa exponent - reached, point, found, ?_, by omega, by omega, ?_⟩
  · rw [← outcome, taken]
    rfl
  · intro fine below hit
    obtain ⟨count, rfl⟩ : ∃ count : Nat, fine = leadingOf mantissa exponent - count :=
      ⟨(leadingOf mantissa exponent - fine).toNat, by omega⟩
    by_contra finer
    have unhit := missed count (by omega)
    rw [Option.map_eq_none_iff] at unhit
    rw [unhit] at hit
    cases hit

namespace Significant

/-- The number that significant digits stand for. -/
def amount (number : Significant) : ℚ :=
  valueOf number.digits * 10 ^ (number.exponent + 1 - number.digits.length)

/-- Digits of which the first is not a zero. -/
structure IsNormal (number : Significant) : Prop where
  digital : AllDigits number.digits
  nonempty : number.digits ≠ []
  head : number.digits.head? ≠ some '0'

end Significant

/-- The first digit of a number is below its power of ten. -/
theorem Significant.IsNormal.pow_le {number : Significant} (normal : number.IsNormal) :
    (10 : ℚ) ^ number.exponent ≤ number.amount := by
  obtain ⟨first, rest, split⟩ := List.exists_cons_of_ne_nil normal.nonempty
  have digit : 1 ≤ first.toNat - '0'.toNat := by
    have range := toNat_of_isDigit (normal.digital first (by rw [split]; exact List.mem_cons_self))
    have other : first ≠ '0' := by
      have head := normal.head
      rw [split] at head
      simpa using head
    have apart : first.toNat ≠ 48 := fun same => other (Char.toNat_inj.mp same)
    have zero : '0'.toNat = 48 := rfl
    omega
  have value : 10 ^ rest.length ≤ valueOf number.digits := by
    rw [split, valueOf_cons]
    exact (Nat.le_mul_of_pos_left _ digit).trans (Nat.le_add_right _ _)
  have value' : (10 : ℚ) ^ rest.length ≤ valueOf number.digits := by exact_mod_cast value
  have power : number.exponent = rest.length + (number.exponent + 1 - number.digits.length) := by
    rw [split, List.length_cons]
    push_cast
    ring
  calc (10 : ℚ) ^ number.exponent
      = 10 ^ rest.length * 10 ^ (number.exponent + 1 - number.digits.length) := by
        rw [← zpow_natCast, ← zpow_add₀ (by norm_num), ← power]
    _ ≤ number.amount := mul_le_mul_of_nonneg_right value' (by positivity)

/-- Zeros that are dropped count with their places. -/
theorem valueOf_dropTrailingZeros (digits : List Char) :
    valueOf (dropTrailingZeros digits) *
      10 ^ (digits.length - (dropTrailingZeros digits).length) = valueOf digits := by
  have zeros (count : Nat) : valueOf (List.replicate count '0') = 0 := by
    have split := valueOf_zeros_append count []
    rwa [List.append_nil] at split
  conv_rhs => rw [← dropTrailingZeros_append digits, valueOf_append, zeros, List.length_replicate]
  rw [add_zero]

/-- Significant digits on a grid stand for the point. -/
theorem amount_onGrid (spacing : Int) (point : Nat) :
    (onGrid spacing point).amount = point * 10 ^ spacing := by
  have total := valueOf_dropTrailingZeros (digitsOf point)
  have padded := congrArg List.length (dropTrailingZeros_append (digitsOf point))
  rw [List.length_append, List.length_replicate] at padded
  rw [valueOf_digitsOf] at total
  have power : spacing + (digitsOf point).length - 1 + 1 - (dropTrailingZeros (digitsOf point)).length =
      ((digitsOf point).length - (dropTrailingZeros (digitsOf point)).length : Nat) + spacing := by
    omega
  rw [Significant.amount, onGrid]
  dsimp only
  rw [power, zpow_add₀ (by norm_num), zpow_natCast, ← mul_assoc]
  congr 1
  exact_mod_cast total

/-- The digits of a point that is not zero start with another digit. -/
theorem isNormal_onGrid (spacing : Int) {point : Nat} (positive : 0 < point) :
    (onGrid spacing point).IsNormal := by
  have split := dropTrailingZeros_append (digitsOf point)
  have first := head?_digitsOf_ne_zero positive
  have nonempty : dropTrailingZeros (digitsOf point) ≠ [] := by
    intro empty
    have value := valueOf_dropTrailingZeros (digitsOf point)
    rw [empty, valueOf_digitsOf] at value
    simp [valueOf] at value
    omega
  refine ⟨?_, nonempty, ?_⟩
  · exact fun c inside => allDigits_digitsOf point c (mem_of_mem_dropTrailingZeros inside)
  · rw [← split, List.head?_append_of_ne_nil _ nonempty] at first
    exact first

/-- A rational that rounds to a magnitude that is not zero is positive. -/
theorem RoundsTo.pos {exact : ℚ} {mantissa : Nat} {exponent : Int}
    (rounds : RoundsTo exact mantissa exponent) (positive : 0 < mantissa) : 0 < exact := by
  obtain ⟨whole, half⟩ := half_unit exponent
  have unit : (0 : ℚ) < 2 ^ (exponent - 2) := by positivity
  have gap : (gapBelow mantissa exponent : ℚ) ≤ 2 := by
    exact_mod_cast gapBelow_le_two mantissa exponent
  have least : (1 : ℚ) ≤ mantissa := by exact_mod_cast positive
  have low := rounds.low
  rw [LaserCut.Decimal.amount, whole, half] at low
  nlinarith

/-- A grid point that rounds to a magnitude that is not zero is none itself. -/
theorem RoundsTo.pos_of_point {point mantissa : Nat} {exponent spacing : Int}
    (rounds : RoundsTo (point * 10 ^ spacing) mantissa exponent) (positive : 0 < mantissa) :
    0 < point := by
  have above := rounds.pos positive
  refine Nat.pos_of_ne_zero fun zero => ?_
  rw [zero, Nat.cast_zero, zero_mul] at above
  exact lt_irrefl _ above

/-- The shortest digits of a magnitude stand for a number that rounds to it. -/
theorem roundsTo_shortest (tie : Tie) {mantissa : Nat} {exponent : Int}
    (aligned : IsAligned mantissa exponent) (positive : 0 < mantissa) :
    (shortest tie mantissa exponent).IsNormal ∧
      RoundsTo (shortest tie mantissa exponent).amount mantissa exponent := by
  obtain ⟨spacing, point, found, digits, -⟩ := shortest_eq tie aligned positive
  obtain ⟨rounds, -⟩ := roundsTo_of_gridPoint? aligned positive found
  rw [digits, amount_onGrid]
  exact ⟨isNormal_onGrid spacing (rounds.pos_of_point positive), rounds⟩

/-- A rational is as near to the magnitude that it rounds to as its digits reach. -/
theorem RoundsTo.abs_sub_le {exact : ℚ} {mantissa : Nat} {exponent : Int}
    (rounds : RoundsTo exact mantissa exponent) (normal : leadingBit ≤ mantissa) :
    |exact - amount mantissa exponent| * 2 ^ 53 ≤
      amount mantissa exponent := by
  obtain ⟨whole, half⟩ := half_unit exponent
  have unit : (0 : ℚ) < 2 ^ (exponent - 2) := by positivity
  have gap : (gapBelow mantissa exponent : ℚ) ≤ 2 := by
    exact_mod_cast gapBelow_le_two mantissa exponent
  have large : (leadingBit : ℚ) ≤ mantissa := by exact_mod_cast normal
  have low := rounds.low
  have high := rounds.high
  have near : |exact - amount mantissa exponent| ≤ 2 * 2 ^ (exponent - 2) := by
    rw [abs_le]
    constructor <;> nlinarith
  have size : (2 * 2 ^ (exponent - 2) : ℚ) * 2 ^ 53 ≤ amount mantissa exponent := by
    rw [LaserCut.Decimal.amount, whole, half]
    rw [leadingBit] at large
    push_cast at large
    nlinarith
  nlinarith

/-- What is not too small rounds to a magnitude that has its leading bit. -/
theorem RoundsTo.leading {exact : ℚ} {mantissa : Nat} {exponent : Int}
    (rounds : RoundsTo exact mantissa exponent) (large : 2 ^ (-1021 : Int) ≤ exact) :
    leadingBit ≤ mantissa := by
  refine rounds.aligned.leading.elim id fun least => ?_
  by_contra short
  have bound : mantissa ≤ 4503599627370495 := by
    unfold leadingBit at short
    omega
  have small : (mantissa : ℚ) ≤ 4503599627370495 := by exact_mod_cast bound
  have unit : (0 : ℚ) < 2 ^ (-1074 : Int) := by positivity
  have half : (2 : ℚ) ^ (-1074 - 1 : Int) ≤ 2 ^ (-1074 : Int) :=
    zpow_le_zpow_right₀ one_le_two (by decide)
  have top : (2 : ℚ) ^ (-1021 : Int) = 9007199254740992 * 2 ^ (-1074 : Int) := by
    rw [show (9007199254740992 : ℚ) = 2 ^ (53 : Int) by norm_num, ← zpow_add₀ two_ne_zero]
    norm_num
  have high := rounds.high
  rw [least, amount] at high
  rw [top] at large
  nlinarith

/-- The most digits with which a decimal fraction surely has a double of its own. -/
def sureDigits : Nat :=
  15

/-- Powers of ten are ordered as their exponents. -/
theorem lt_of_ten_zpow_lt {first second : Int} (less : (10 : ℚ) ^ first < 10 ^ second) :
    first < second :=
  (zpow_lt_zpow_iff_right₀ (by norm_num)).mp less

/-- In units of its last place, a decimal fraction of few digits rounds to a number
of as few digits. -/
theorem RoundsTo.units_of_decimal {digits places mantissa : Nat} {exponent : Int}
    (few : digits < 10 ^ sureDigits) (counts : 0 < digits) (normal : leadingBit ≤ mantissa)
    (rounds : RoundsTo (digits / 10 ^ places) mantissa exponent) :
    1 / 10 < amount mantissa exponent * 10 ^ places ∧
      amount mantissa exponent * 10 ^ places ≤ 10 ^ sureDigits - 1 / 2 := by
  have scale : (0 : ℚ) < 10 ^ places := by positivity
  have least : (1 : ℚ) ≤ digits := by exact_mod_cast counts
  have most : (digits : ℚ) ≤ 999999999999999 := by
    have bound : digits ≤ 999999999999999 := Nat.le_of_lt_succ few
    exact_mod_cast bound
  have near := mul_le_mul_of_nonneg_right (rounds.abs_sub_le normal) scale.le
  rw [mul_right_comm, ← abs_of_pos scale, ← abs_mul, abs_of_pos scale, sub_mul,
    div_mul_cancel₀ _ scale.ne'] at near
  generalize amount mantissa exponent * 10 ^ places = units at near ⊢
  obtain ⟨below, above⟩ := abs_le.mp ((le_div_iff₀ (by positivity)).mpr near)
  norm_num [sureDigits] at below above ⊢
  constructor <;> linarith

/-- The first digit of what a decimal fraction of few digits rounds to stands at most one
place behind the last digit of the fraction, and less than fifteen places before it. -/
theorem RoundsTo.leadingOf_of_decimal {digits places mantissa : Nat} {exponent : Int}
    (few : digits < 10 ^ sureDigits) (counts : 0 < digits) (normal : leadingBit ≤ mantissa)
    (rounds : RoundsTo (digits / 10 ^ places) mantissa exponent) :
    -1 ≤ leadingOf mantissa exponent + places ∧ leadingOf mantissa exponent + places < 15 := by
  have positive : 0 < mantissa := lt_of_lt_of_le (by decide) normal
  obtain ⟨more, less⟩ := rounds.units_of_decimal few counts normal
  obtain ⟨low, high⟩ := leadingOf_spec positive exponent
  constructor
  · have bottom : (-1 : Int) < leadingOf mantissa exponent + 1 + places := by
      apply lt_of_ten_zpow_lt
      rw [zpow_add₀ (by norm_num) _ (places : Int), zpow_natCast]
      calc (10 : ℚ) ^ (-1 : Int) = 1 / 10 := by norm_num
        _ < amount mantissa exponent * 10 ^ places := more
        _ ≤ 10 ^ (leadingOf mantissa exponent + 1) * 10 ^ places := by gcongr
    omega
  · apply lt_of_ten_zpow_lt
    rw [zpow_add₀ (by norm_num), zpow_natCast]
    calc (10 : ℚ) ^ leadingOf mantissa exponent * 10 ^ places
        ≤ amount mantissa exponent * 10 ^ places := by gcongr
      _ ≤ 10 ^ sureDigits - 1 / 2 := less
      _ < 10 ^ (15 : Int) := by norm_num [sureDigits]

/-- A decimal fraction is a point of its own grid, and of every finer one. -/
theorem isSome_gridPoint?_of_decimal (tie : Tie) {digits places mantissa : Nat}
    {exponent spacing : Int} (positive : 0 < mantissa)
    (rounds : RoundsTo (digits / 10 ^ places) mantissa exponent) (finer : spacing ≤ -places) :
    (gridPoint? tie mantissa exponent spacing).isSome := by
  obtain ⟨count, rfl⟩ : ∃ count : Nat, spacing = -places - count :=
    ⟨(-places - spacing).toNat, by omega⟩
  refine @isSome_gridPoint? tie mantissa (digits * 10 ^ count) exponent _ positive ?_
  have same : ((digits * 10 ^ count : Nat) : ℚ) * 10 ^ (-places - count : Int) =
      digits / 10 ^ places := by
    push_cast
    rw [zpow_sub₀ (by norm_num), zpow_neg, zpow_natCast, zpow_natCast]
    field_simp
  rwa [same]

/-- A decimal fraction of few digits is found on a grid that is no finer than its own
or than a tenth of it, and by a point of as few digits. -/
theorem shortest_eq_onGrid (tie : Tie) {digits places mantissa : Nat} {exponent : Int}
    (few : digits < 10 ^ sureDigits) (counts : 0 < digits) (normal : leadingBit ≤ mantissa)
    (rounds : RoundsTo (digits / 10 ^ places) mantissa exponent) :
    ∃ spacing point, shortest tie mantissa exponent = onGrid spacing point ∧
      RoundsTo (point * 10 ^ spacing) mantissa exponent ∧
      point ≤ 10 ^ sureDigits ∧ -(places : Int) - 1 ≤ spacing := by
  have positive : 0 < mantissa := lt_of_lt_of_le (by decide) normal
  obtain ⟨-, high⟩ := leadingOf_spec positive exponent
  obtain ⟨bottom, top⟩ := rounds.leadingOf_of_decimal few counts normal
  obtain ⟨spacing, point, found, written, coarser, -, first⟩ :=
    shortest_eq tie rounds.aligned positive
  have reached : min (leadingOf mantissa exponent) (-places) ≤ spacing :=
    first _ (min_le_left _ _) (isSome_gridPoint?_of_decimal tie positive rounds (min_le_right _ _))
  obtain ⟨read, neighbour⟩ := roundsTo_of_gridPoint? rounds.aligned positive found
  obtain ⟨floor, -⟩ := gridFloor_spec mantissa exponent spacing
  have bound : (gridFloor mantissa exponent spacing : ℚ) < 10 ^ (15 : Int) := by
    calc (gridFloor mantissa exponent spacing : ℚ)
        ≤ amount mantissa exponent / 10 ^ spacing := (le_div_iff₀ (by positivity)).mpr floor
      _ < 10 ^ (leadingOf mantissa exponent + 1) / 10 ^ spacing := by gcongr
      _ = 10 ^ (leadingOf mantissa exponent + 1 - spacing) := (zpow_sub₀ (by norm_num) _ _).symm
      _ ≤ 10 ^ (15 : Int) := zpow_le_zpow_right₀ (by norm_num) (by omega)
  have small : gridFloor mantissa exponent spacing < 10 ^ sureDigits := by exact_mod_cast bound
  exact ⟨spacing, point, written, read, by omega, by omega⟩

/-- A decimal fraction of few digits is written with few digits and with few places
behind the point. -/
theorem shortest_of_decimal (tie : Tie) {digits places mantissa : Nat} {exponent : Int}
    (few : digits < 10 ^ sureDigits) (counts : 0 < digits) (normal : leadingBit ≤ mantissa)
    (rounds : RoundsTo (digits / 10 ^ places) mantissa exponent) :
    let number := shortest tie mantissa exponent
    valueOf number.digits ≤ 10 ^ sureDigits ∧ number.amount < 10 ^ sureDigits ∧
      -(places : Int) - 1 ≤ number.exponent + 1 - number.digits.length := by
  intro number
  obtain ⟨spacing, point, written, read, size, fine⟩ :=
    shortest_eq_onGrid tie few counts normal rounds
  have positive : 0 < mantissa := lt_of_lt_of_le (by decide) normal
  have value := valueOf_dropTrailingZeros (digitsOf point)
  have padded := congrArg List.length (dropTrailingZeros_append (digitsOf point))
  rw [valueOf_digitsOf] at value
  rw [List.length_append, List.length_replicate] at padded
  rw [show number = onGrid spacing point from written, amount_onGrid]
  refine ⟨?_, ?_, ?_⟩
  · exact (Nat.le_of_dvd (read.pos_of_point positive) ⟨_, value.symm⟩).trans size
  · obtain ⟨-, less⟩ := rounds.units_of_decimal few counts normal
    have apart := read.abs_sub_le normal
    have part : amount mantissa exponent ≤ amount mantissa exponent * 10 ^ places :=
      le_mul_of_one_le_right (amount_nonneg _ _) (one_le_pow₀ (by norm_num))
    generalize (point : ℚ) * 10 ^ spacing = rational at apart ⊢
    obtain ⟨-, above⟩ := abs_le.mp ((le_div_iff₀ (by positivity)).mpr apart)
    norm_num [sureDigits] at above less ⊢
    linarith
  · rw [onGrid]
    dsimp only
    omega

/-- The most places behind the point of a decimal fraction that is read back from a
document. -/
def surePlaces : Nat :=
  20

/-- A double that is nearest to a decimal fraction of few digits. -/
def IsShort (value : Float) : Prop :=
  ∃ negative digits places, digits < 10 ^ sureDigits ∧ places ≤ surePlaces ∧
    value = signed negative (nearest digits (-(places : Nat)))

/-- A fraction of few places is large enough to have all bits of a double. -/
theorem tiny_le_fraction {digits places : Nat} (counts : 0 < digits) (short : places ≤ surePlaces) :
    (2 : ℚ) ^ (-1021 : Int) ≤ digits / 10 ^ places := by
  have least : (1 : ℚ) ≤ digits := by exact_mod_cast counts
  calc (2 : ℚ) ^ (-1021 : Int) ≤ 2 ^ (-70 : Int) :=
        zpow_le_zpow_right₀ one_le_two (by decide)
    _ ≤ 1 / 10 ^ surePlaces := by norm_num [surePlaces]
    _ ≤ digits / 10 ^ places := by
        gcongr
        norm_num

/-- A double of few digits is a zero, or it has all its bits. -/
theorem IsShort.cases {value : Float} (short : IsShort value) :
    (∃ negative, value = signed negative 0.0) ∨
      ∃ (digits places : Nat) (negative : Bool) (mantissa : Nat) (exponent : Int),
        digits < 10 ^ sureDigits ∧ 0 < digits ∧
        places ≤ surePlaces ∧ leadingBit ≤ mantissa ∧
        RoundsTo (digits / 10 ^ places) mantissa exponent ∧
        Binary.ofFloat value = .finite negative mantissa exponent := by
  obtain ⟨negative, digits, places, few, near, rfl⟩ := short
  have rounded := isRounded_nearest digits (-(places : Nat))
  rw [zpow_neg, zpow_natCast, ← div_eq_mul_inv] at rounded
  rcases digits.eq_zero_or_pos with rfl | counts
  · rw [Nat.cast_zero, zero_div] at rounded
    have zero : nearest 0 (-(places : Nat)) = 0.0 :=
      eq_of_parts (rounded.parts roundsTo_zero (by decide))
    exact .inl ⟨negative, by rw [zero]⟩
  · obtain ⟨mantissa, exponent, rounds, parts⟩ := id rounded
    have normal := rounds.leading (tiny_le_fraction counts near)
    have fits : exponent ≤ 971 := by
      obtain ⟨-, less⟩ := rounds.units_of_decimal few counts normal
      have above : (1 : ℚ) ≤ mantissa := by
        exact_mod_cast lt_of_lt_of_le (by decide : 0 < leadingBit) normal
      have power : (2 : ℚ) ^ exponent < 2 ^ (971 : Int) := by
        calc (2 : ℚ) ^ exponent ≤ amount mantissa exponent :=
              le_mul_of_one_le_left (by positivity) above
          _ ≤ amount mantissa exponent * 10 ^ places :=
              le_mul_of_one_le_right (amount_nonneg _ _) (one_le_pow₀ (by norm_num))
          _ ≤ 10 ^ sureDigits - 1 / 2 := less
          _ < 2 ^ (50 : Int) := by norm_num [sureDigits]
          _ ≤ 2 ^ (971 : Int) := zpow_le_zpow_right₀ one_le_two (by decide)
      exact ((zpow_lt_zpow_iff_right₀ one_lt_two).mp power).le
    exact .inr ⟨digits, places, negative, mantissa, exponent, few, counts, near, normal, rounds,
      ofFloat_signed negative (rounded.parts rounds fits)⟩

end LaserCut.Decimal
