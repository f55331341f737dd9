/-
# The union of boxes

A box is joined to another one by growing to its two corners, and a coordinate that moves
the least end of an axis is not compared with the greatest one.  That loses nothing if the
ends of the joined box are in order: whenever its least end moves the least end, its greatest
end is still to come.  So boxes in order are joined to their union, in whatever order they
come and on whichever side of the origin they lie.  The origin itself belongs to the union as
far as the greatest corner goes, since that is where a fresh box has it.
-/

import Mathlib
import LaserCut.Proofs.Geometry.Box
import LaserCut.Proofs.Stats

namespace LaserCut

open Decimal

/-- What holds of the order of doubles and of its reverse. -/
structure Decimal.IsOrder (order : Float → Float → Prop) : Prop where
  trans : ∀ {left middle right}, order left middle → order middle right → order left right
  of_beq : ∀ {left right}, (left == right) = true → order left right
  antisymm : ∀ {left right}, order left right → order right left → (left == right) = true

theorem Decimal.isOrder_le : IsOrder (· ≤ ·) :=
  ⟨Decimal.le_trans, le_of_beq, beq_of_le⟩

theorem Decimal.isOrder_ge : IsOrder (· ≥ ·) :=
  ⟨fun first second => Decimal.le_trans second first, fun same => le_of_beq (beq_symm same),
    fun first second => beq_of_le second first⟩

/-- A double is one of several as a number, and comes before all of them. -/
structure IsExtremeOf (order : Float → Float → Prop) (value : Float) (values : List Float) :
    Prop where
  reached : ∃ other ∈ values, (value == other) = true
  bound : ∀ other ∈ values, order value other

/-- The least of several doubles. -/
abbrev IsLeastOf : Float → List Float → Prop :=
  IsExtremeOf (· ≤ ·)

/-- The greatest of several doubles. -/
abbrev IsGreatestOf : Float → List Float → Prop :=
  IsExtremeOf (· ≥ ·)

namespace IsExtremeOf

variable {order : Float → Float → Prop} {value other first second : Float}
  {values others : List Float}

/-- A double that is one of two and comes before both. -/
theorem pair (reached : (value == first) = true ∨ (value == second) = true)
    (before : order value first) (before_second : order value second) :
    IsExtremeOf order value [first, second] :=
  ⟨by simpa using reached, by simpa using ⟨before, before_second⟩⟩

/-- A number alone is extreme. -/
theorem singleton (isOrder : IsOrder order) (number : value.isNaN = false) :
    IsExtremeOf order value [value] := by
  have same := beq_refl number
  refine ⟨⟨value, List.mem_singleton_self _, same⟩, ?_⟩
  rintro other inside
  rw [List.mem_singleton.mp inside]
  exact isOrder.of_beq same

/-- The extreme of two doubles may stand for both of them. -/
theorem cons (isOrder : IsOrder order) (two : IsExtremeOf order other [first, second])
    (all : IsExtremeOf order value (other :: values)) :
    IsExtremeOf order value (first :: second :: values) := by
  obtain ⟨start, rest⟩ := List.forall_mem_cons.mp all.bound
  constructor
  · obtain ⟨found, inside, same⟩ := all.reached
    rcases List.mem_cons.mp inside with rfl | later
    · obtain ⟨one, among, equal⟩ := two.reached
      exact ⟨one, List.mem_append_left values among, beq_trans same equal⟩
    · exact ⟨found, List.mem_append_right [first, second] later, same⟩
  · obtain ⟨left, right⟩ := List.forall_mem_cons.mp two.bound
    refine List.forall_mem_cons.mpr ⟨isOrder.trans start left, List.forall_mem_cons.mpr ⟨?_, rest⟩⟩
    exact isOrder.trans start (right second (List.mem_singleton_self _))

/-- Doubles that come after one that stays are left out. -/
theorem of_subset (isOrder : IsOrder order) (all : IsExtremeOf order value values)
    (kept : others ⊆ values) (before : ∀ one ∈ values, ∃ other ∈ others, order other one) :
    IsExtremeOf order value others := by
  obtain ⟨one, inside, same⟩ := all.reached
  obtain ⟨other, listed, known⟩ := before one inside
  have back := isOrder.trans known (isOrder.of_beq (beq_symm same))
  exact ⟨⟨other, listed, isOrder.antisymm (all.bound other (kept listed)) back⟩,
    fun other listed => all.bound other (kept listed)⟩

/-- What equal numbers share holds of an extreme double if it holds of all of them. -/
theorem of_forall {property : Float → Prop} (all : IsExtremeOf order value values)
    (shared : ∀ {one two : Float}, (one == two) = true → property two → property one)
    (each : ∀ other ∈ values, property other) : property value := by
  obtain ⟨other, inside, same⟩ := all.reached
  exact shared same (each other inside)

/-- As a number there is one extreme of the same doubles. -/
theorem beq_of_mem_iff (isOrder : IsOrder order) (extreme : IsExtremeOf order value values)
    (again : IsExtremeOf order other others) (same : ∀ one, one ∈ values ↔ one ∈ others) :
    (value == other) = true := by
  obtain ⟨one, inside, equal⟩ := extreme.reached
  obtain ⟨two, among, equal'⟩ := again.reached
  apply isOrder.antisymm
  · have before := extreme.bound two ((same two).mpr among)
    exact isOrder.trans before (isOrder.of_beq (beq_symm equal'))
  · have before := again.bound one ((same one).mp inside)
    exact isOrder.trans before (isOrder.of_beq (beq_symm equal))

end IsExtremeOf

namespace Box

/-- A coordinate that is not below the least end is compared with the greatest one. -/
theorem widen_of_not_lt {least greatest coordinate : Float} (numeral : greatest.isNaN = false)
    (known : coordinate.isNaN = false) (above : ¬ coordinate < least) :
    (widen least greatest coordinate).1 = least ∧
      IsGreatestOf (widen least greatest coordinate).2 [greatest, coordinate] := by
  rw [widen, if_neg above]
  by_cases further : greatest < coordinate
  · rw [if_pos further]
    exact ⟨rfl, .pair (.inr (beq_refl known)) (Decimal.le_of_lt further) (Decimal.le_refl known)⟩
  · rw [if_neg further]
    exact ⟨rfl, .pair (.inl (beq_refl numeral)) (Decimal.le_refl numeral)
      (Decimal.le_of_not_lt numeral known further)⟩

/-- After the ends of a box have been seen, least first, an axis ends at the least of the
least ends and at the greatest of the greatest ones. -/
theorem widen_widen {least greatest low high : Float} (number : least.isNaN = false)
    (numeral : greatest.isNaN = false) (order : low ≤ high) :
    let seen := widen least greatest low
    IsLeastOf (widen seen.1 seen.2 high).1 [least, low] ∧
      IsGreatestOf (widen seen.1 seen.2 high).2 [greatest, high] := by
  intro seen
  obtain ⟨first, second, -⟩ := le_iff.mp order
  by_cases below : low < least
  · -- the least end moves, and the greatest one waits for the second coordinate
    have moved : seen = (low, greatest) := if_pos below
    obtain ⟨kept, top⟩ := widen_of_not_lt numeral second (Decimal.not_lt_of_le order)
    rw [moved, kept]
    exact ⟨.pair (.inr (beq_refl first)) (Decimal.le_of_lt below) (Decimal.le_refl first), top⟩
  · have under : least ≤ low := Decimal.le_of_not_lt first number below
    obtain ⟨kept, reached⟩ := widen_of_not_lt numeral first below
    obtain ⟨still, top⟩ := widen_of_not_lt (le_iff.mp (reached.bound _ List.mem_cons_self)).2.1
      second (Decimal.not_lt_of_le (Decimal.le_trans under order))
    change IsLeastOf (widen (widen least greatest low).1 (widen least greatest low).2 high).1 _ ∧
      IsGreatestOf (widen (widen least greatest low).1 (widen least greatest low).2 high).2 _
    rw [kept, still]
    refine ⟨.pair (.inl (beq_refl number)) (Decimal.le_refl number) under, ?_⟩
    -- the first coordinate is not above the second one, so it does not count
    refine (IsExtremeOf.cons isOrder_ge reached top).of_subset isOrder_ge (by simp) ?_
    simp only [List.forall_mem_cons, List.not_mem_nil, false_imp_iff, implies_true, and_true]
    exact ⟨⟨greatest, by simp, Decimal.le_refl numeral⟩, ⟨high, by simp, order⟩,
      high, by simp, Decimal.le_refl second⟩

/-- A coordinate moves the ends of an axis outwards only. -/
theorem widen_bounds {least greatest : Float} (number : least.isNaN = false)
    (numeral : greatest.isNaN = false) (coordinate : Float) :
    (widen least greatest coordinate).1 ≤ least ∧
      greatest ≤ (widen least greatest coordinate).2 := by
  unfold widen
  split_ifs with below further
  · exact ⟨Decimal.le_of_lt below, Decimal.le_refl numeral⟩
  · exact ⟨Decimal.le_refl number, Decimal.le_of_lt further⟩
  · exact ⟨Decimal.le_refl number, Decimal.le_refl numeral⟩

/-- The ends of a box are in order on both axes. -/
structure IsOrdered (box : Box Float) : Prop where
  x : box.minX ≤ box.maxX
  y : box.minY ≤ box.maxY

/-- A box is finite, and its ends are in order. -/
structure IsProper (box : Box Float) : Prop where
  finite : box.IsFinite
  ordered : box.IsOrdered

/-- A box reaches as far as another one on every side. -/
structure Contains (box other : Box Float) : Prop where
  minX : box.minX ≤ other.minX
  minY : box.minY ≤ other.minY
  maxX : other.maxX ≤ box.maxX
  maxY : other.maxY ≤ box.maxY

instance (box : Box Float) : Decidable box.IsProper :=
  decidable_of_iff
    ((box.minX.isFinite ∧ box.minY.isFinite ∧ box.maxX.isFinite ∧ box.maxY.isFinite) ∧
      box.minX ≤ box.maxX ∧ box.minY ≤ box.maxY)
    ⟨fun ⟨⟨minX, minY, maxX, maxY⟩, x, y⟩ => ⟨⟨minX, minY, maxX, maxY⟩, x, y⟩,
      fun ⟨⟨minX, minY, maxX, maxY⟩, x, y⟩ => ⟨⟨minX, minY, maxX, maxY⟩, x, y⟩⟩

/-- The ends of a box are those of several boxes together and of the origin, which counts for
the greatest corner only. -/
structure IsJoinOf (box : Box Float) (boxes : List (Box Float)) : Prop where
  minX : IsLeastOf box.minX (boxes.map Box.minX)
  minY : IsLeastOf box.minY (boxes.map Box.minY)
  maxX : IsGreatestOf box.maxX (0 :: boxes.map Box.maxX)
  maxY : IsGreatestOf box.maxY (0 :: boxes.map Box.maxY)

/-- The ends of a box are those of a start and of several boxes together. -/
structure IsJoinFrom (box start : Box Float) (boxes : List (Box Float)) : Prop where
  minX : IsLeastOf box.minX (start.minX :: boxes.map Box.minX)
  minY : IsLeastOf box.minY (start.minY :: boxes.map Box.minY)
  maxX : IsGreatestOf box.maxX (start.maxX :: boxes.map Box.maxX)
  maxY : IsGreatestOf box.maxY (start.maxY :: boxes.map Box.maxY)

variable {box other start : Box Float} {boxes others : List (Box Float)}

/-- A fresh box contains itself, as a box without NaN does. -/
theorem contains_empty : Box.Contains .empty .empty :=
  ⟨by decide, by decide, by decide, by decide⟩

/-- A box in order contains itself. -/
theorem IsOrdered.contains_self (ordered : box.IsOrdered) : box.Contains box :=
  ⟨Decimal.le_refl (le_iff.mp ordered.x).1, Decimal.le_refl (le_iff.mp ordered.y).1,
    Decimal.le_refl (le_iff.mp ordered.x).2.1, Decimal.le_refl (le_iff.mp ordered.y).2.1⟩

namespace Contains

/-- A box that grows to a point contains what it contained. -/
theorem expand (contains : box.Contains other) (point : Point Float) :
    (box.expand point).Contains other := by
  have x := widen_bounds (le_iff.mp contains.minX).1 (le_iff.mp contains.maxX).2.1 point.x
  have y := widen_bounds (le_iff.mp contains.minY).1 (le_iff.mp contains.maxY).2.1 point.y
  exact
    { minX := Decimal.le_trans x.1 contains.minX
      minY := Decimal.le_trans y.1 contains.minY
      maxX := Decimal.le_trans contains.maxX x.2
      maxY := Decimal.le_trans contains.maxY y.2 }

/-- A box that another one is joined to contains what it contained. -/
theorem merge (contains : box.Contains other) (added : Box Float) :
    (box.merge added).Contains other :=
  (contains.expand _).expand _

/-- A box that several ones are joined to contains what it contained. -/
theorem foldl_merge (contains : box.Contains other) (boxes : List (Box Float)) :
    (boxes.foldl Box.merge box).Contains other :=
  @List.foldlRecOn _ _ (fun reached => reached.Contains other) boxes Box.merge _ contains
    fun _ known added _ => known.merge added

end Contains

/-- A box is joined to its union with a box in order. -/
theorem isJoinFrom_merge (known : start.Contains other) (ordered : box.IsOrdered) :
    (start.merge box).IsJoinFrom start [box] := by
  have x := widen_widen (le_iff.mp known.minX).1 (le_iff.mp known.maxX).2.1 ordered.x
  have y := widen_widen (le_iff.mp known.minY).1 (le_iff.mp known.maxY).2.1 ordered.y
  exact ⟨x.1, y.1, x.2, y.2⟩

/-- A box that a box in order is joined to contains it. -/
theorem contains_merge (known : start.Contains other) (ordered : box.IsOrdered) :
    (start.merge box).Contains box := by
  have join := isJoinFrom_merge known ordered
  constructor
  · exact join.minX.bound _ (by simp)
  · exact join.minY.bound _ (by simp)
  · exact join.maxX.bound _ (by simp)
  · exact join.maxY.bound _ (by simp)

/-- Each box in order is contained in what several boxes are joined to, whatever the other ones
are. -/
theorem contains_foldl_merge (known : start.Contains other) (inside : box ∈ boxes)
    (ordered : box.IsOrdered) : (boxes.foldl Box.merge start).Contains box := by
  obtain ⟨before, after, rfl⟩ := List.append_of_mem inside
  rw [List.foldl_append, List.foldl_cons]
  exact (contains_merge (known.foldl_merge before) ordered).foldl_merge after

/-- Boxes in order are joined to the union of the start and all of them. -/
theorem isJoinFrom_foldl_merge (known : start.Contains other)
    (ordered : ∀ box ∈ boxes, box.IsOrdered) :
    (boxes.foldl Box.merge start).IsJoinFrom start boxes := by
  induction boxes generalizing start with
  | nil =>
      exact ⟨.singleton isOrder_le (le_iff.mp known.minX).1,
        .singleton isOrder_le (le_iff.mp known.minY).1,
        .singleton isOrder_ge (le_iff.mp known.maxX).2.1,
        .singleton isOrder_ge (le_iff.mp known.maxY).2.1⟩
  | cons first rest ih =>
      obtain ⟨head, tail⟩ := List.forall_mem_cons.mp ordered
      have step := isJoinFrom_merge known head
      have all := ih (known.merge first) tail
      exact ⟨step.minX.cons isOrder_le all.minX, step.minY.cons isOrder_le all.minY,
        step.maxX.cons isOrder_ge all.maxX, step.maxY.cons isOrder_ge all.maxY⟩

/-- A finite coordinate is not above infinity. -/
theorem le_infinity {value : Float} (finite : value.isFinite) :
    value ≤ (Scalar.infinity : Float) :=
  Decimal.le_of_lt (lt_infinity finite)

/-- Proper boxes are joined to their union. -/
theorem isJoinOf_foldl_merge (proper : ∀ box ∈ boxes, box.IsProper) (nonempty : boxes ≠ []) :
    (boxes.foldl Box.merge .empty).IsJoinOf boxes := by
  have join := isJoinFrom_foldl_merge contains_empty fun box inside => (proper box inside).ordered
  obtain ⟨first, inside⟩ := List.exists_mem_of_ne_nil _ nonempty
  -- infinity comes after the least ends
  have least {value : Float} (side : Box Float → Float)
      (finite : ∀ box ∈ boxes, (side box).isFinite)
      (all : IsLeastOf value (Scalar.infinity :: boxes.map side)) :
      IsLeastOf value (boxes.map side) := by
    refine all.of_subset isOrder_le (List.subset_cons_self ..) (List.forall_mem_cons.mpr ⟨?_, ?_⟩)
    · exact ⟨side first, List.mem_map_of_mem inside, le_infinity (finite first inside)⟩
    · intro one listed
      obtain ⟨box, among, rfl⟩ := List.mem_map.mp listed
      exact ⟨side box, listed, Decimal.le_refl (units_lt_of_isFinite (finite box among)).1⟩
  exact
    { minX := least Box.minX (fun box among => (proper box among).finite.minX) join.minX
      minY := least Box.minY (fun box among => (proper box among).finite.minY) join.minY
      maxX := join.maxX
      maxY := join.maxY }

namespace IsJoinOf

/-- A union contains each of its boxes. -/
theorem contains (join : box.IsJoinOf boxes) (inside : other ∈ boxes) : box.Contains other where
  minX := join.minX.bound _ (List.mem_map_of_mem inside)
  minY := join.minY.bound _ (List.mem_map_of_mem inside)
  maxX := join.maxX.bound _ (List.mem_cons_of_mem _ (List.mem_map_of_mem inside))
  maxY := join.maxY.bound _ (List.mem_cons_of_mem _ (List.mem_map_of_mem inside))

/-- A union of proper boxes is proper. -/
theorem isProper (join : box.IsJoinOf boxes) (proper : ∀ other ∈ boxes, other.IsProper)
    (nonempty : boxes ≠ []) : box.IsProper := by
  have least (side : Box Float → Float) (finite : ∀ other ∈ boxes, (side other).isFinite) :
      ∀ value ∈ boxes.map side, value.isFinite := List.forall_mem_map.mpr finite
  have greatest (side : Box Float → Float) (finite : ∀ other ∈ boxes, (side other).isFinite) :
      ∀ value ∈ 0 :: boxes.map side, value.isFinite :=
    List.forall_mem_cons.mpr ⟨by decide, least side finite⟩
  obtain ⟨first, inside⟩ := List.exists_mem_of_ne_nil _ nonempty
  have contains := join.contains inside
  have ordered := (proper first inside).ordered
  have finite : box.IsFinite :=
    { minX := join.minX.of_forall isFinite_of_beq (least _ fun other among =>
        (proper other among).finite.minX)
      minY := join.minY.of_forall isFinite_of_beq (least _ fun other among =>
        (proper other among).finite.minY)
      maxX := join.maxX.of_forall isFinite_of_beq (greatest _ fun other among =>
        (proper other among).finite.maxX)
      maxY := join.maxY.of_forall isFinite_of_beq (greatest _ fun other among =>
        (proper other among).finite.maxY) }
  exact ⟨finite, Decimal.le_trans contains.minX (Decimal.le_trans ordered.x contains.maxX),
    Decimal.le_trans contains.minY (Decimal.le_trans ordered.y contains.maxY)⟩

/-- The same boxes in another order have the same union as numbers. -/
theorem isSame (join : box.IsJoinOf boxes) (again : other.IsJoinOf others)
    (same : ∀ one, one ∈ boxes ↔ one ∈ others) : box.IsSame other := by
  have ends (side : Box Float → Float) (value : Float) :
      value ∈ boxes.map side ↔ value ∈ others.map side := by
    simp only [List.mem_map, same]
  have ends' (side : Box Float → Float) (value : Float) :
      value ∈ 0 :: boxes.map side ↔ value ∈ 0 :: others.map side := by
    rw [List.mem_cons, List.mem_cons, ends]
  exact ⟨join.minX.beq_of_mem_iff isOrder_le again.minX (ends _),
    join.minY.beq_of_mem_iff isOrder_le again.minY (ends _),
    join.maxX.beq_of_mem_iff isOrder_ge again.maxX (ends' _),
    join.maxY.beq_of_mem_iff isOrder_ge again.maxY (ends' _)⟩

/-- What contains boxes and a fresh one contains their union. -/
theorem contains_of_forall {outer : Box Float} (join : box.IsJoinOf boxes)
    (within : ∀ other ∈ boxes, outer.Contains other) (fresh : outer.Contains .empty) :
    outer.Contains box := by
  have below {low one two : Float} (same : (one == two) = true) (order : low ≤ two) : low ≤ one :=
    Decimal.le_trans order (le_of_beq (beq_symm same))
  have above {high one two : Float} (same : (one == two) = true) (order : two ≤ high) :
      one ≤ high := Decimal.le_trans (le_of_beq same) order
  constructor
  · exact join.minX.of_forall below (List.forall_mem_map.mpr fun other inside =>
      (within other inside).minX)
  · exact join.minY.of_forall below (List.forall_mem_map.mpr fun other inside =>
      (within other inside).minY)
  · exact join.maxX.of_forall above (List.forall_mem_cons.mpr ⟨fresh.maxX,
      List.forall_mem_map.mpr fun other inside => (within other inside).maxX⟩)
  · exact join.maxY.of_forall above (List.forall_mem_cons.mpr ⟨fresh.maxY,
      List.forall_mem_map.mpr fun other inside => (within other inside).maxY⟩)

end IsJoinOf

end Box

end LaserCut
