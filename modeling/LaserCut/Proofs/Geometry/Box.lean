/-
# Boxes between the finite and the infinite

The least corner of a fresh box is at infinity and its greatest corner at the origin.
Growing to a finite point makes all ends finite.  Joining a fresh box moves the greatest
corner to infinity, and from there nothing brings it back: a single scope without a
line spoils the box of all scopes together.
-/

import Mathlib
import LaserCut.Geometry.Box
import LaserCut.Proofs.Decimal.Order
import LaserCut.Proofs.Job.Content

namespace LaserCut

open Decimal

/-- The infinity of coordinates is the double above all others. -/
theorem units_infinity : (Binary.ofFloat (Scalar.infinity : Float)).units = overflowUnits := by
  have parts : Binary.ofFloat (Scalar.infinity : Float) = .infinite false := by decide
  rw [parts]
  rfl

/-- What a step makes of one property holds after some steps if it brings the other one
along. -/
theorem foldl_of_ne_nil {σ α : Type} {step : σ → α → σ} {before after : σ → Prop} {items : List α}
    (enters : ∀ state, ∀ item ∈ items, before state → after (step state item))
    (brings : ∀ state, after state → before state) (nonempty : items ≠ []) {start : σ}
    (holds : before start) : after (items.foldl step start) := by
  cases items with
  | nil => exact absurd rfl nonempty
  | cons first rest =>
      refine List.foldlRecOn rest step (enters start first List.mem_cons_self holds) ?_
      exact fun state known item inside =>
        enters state item (List.mem_cons_of_mem _ inside) (brings state known)

/-- A coordinate, or the end of an axis that no coordinate has moved. -/
def IsEnd (value : Float) : Prop :=
  value.isFinite ∨ value = Scalar.infinity

/-- Finite coordinates are below infinity. -/
theorem lt_infinity {value : Float} (finite : value.isFinite) :
    value < (Scalar.infinity : Float) := by
  obtain ⟨number, below⟩ := units_lt_of_isFinite finite
  rw [lt_iff_units number (by decide), units_infinity]
  exact below

/-- Nothing is above infinity. -/
theorem not_infinity_lt {value : Float} (ends : IsEnd value) :
    ¬ (Scalar.infinity : Float) < value := by
  rcases ends with finite | rfl
  · obtain ⟨number, below⟩ := units_lt_of_isFinite finite
    rw [lt_iff_units (by decide) number, units_infinity]
    exact below.le.not_gt
  · decide

namespace Box

section Axis

variable {least greatest coordinate : Float}

/-- The least end is finite once a finite coordinate has been seen. -/
theorem isFinite_widen_fst (low : IsEnd least) (seen : coordinate.isFinite) :
    (widen least greatest coordinate).1.isFinite := by
  unfold widen
  by_cases below : coordinate < least
  · rw [if_pos below]
    exact seen
  · have finite : least.isFinite := low.resolve_right fun top => below (top ▸ lt_infinity seen)
    rw [if_neg below]
    split_ifs <;> exact finite

/-- A finite greatest end stays finite under finite coordinates. -/
theorem isFinite_widen_snd (high : greatest.isFinite) (seen : coordinate.isFinite) :
    (widen least greatest coordinate).2.isFinite := by
  unfold widen
  split_ifs
  · exact high
  · exact seen
  · exact high

/-- A greatest end at infinity stays there. -/
theorem widen_snd_of_infinity (seen : IsEnd coordinate) :
    (widen least Scalar.infinity coordinate).2 = Scalar.infinity := by
  unfold widen
  rw [if_neg (not_infinity_lt seen)]
  split_ifs <;> rfl

/-- Infinity moves the greatest end and leaves the least one alone. -/
theorem widen_infinity (low : IsEnd least) (high : IsEnd greatest) :
    widen least greatest Scalar.infinity = (least, Scalar.infinity) := by
  unfold widen
  rw [if_neg (not_infinity_lt low)]
  rcases high with finite | rfl
  · rw [if_pos (lt_infinity finite)]
  · rw [if_neg (not_infinity_lt (.inr rfl))]

end Axis

/-- All ends of a box are finite. -/
structure IsFinite (box : Box Float) : Prop where
  minX : box.minX.isFinite
  minY : box.minY.isFinite
  maxX : box.maxX.isFinite
  maxY : box.maxY.isFinite

/-- The greatest corner of a box is finite, and the least one may still be at infinity. -/
structure IsOpen (box : Box Float) : Prop where
  minX : IsEnd box.minX
  minY : IsEnd box.minY
  maxX : box.maxX.isFinite
  maxY : box.maxY.isFinite

/-- The greatest corner of a box is at infinity, and the least one is finite. -/
structure IsSpoiled (box : Box Float) : Prop where
  minX : box.minX.isFinite
  minY : box.minY.isFinite
  maxX : box.maxX = Scalar.infinity
  maxY : box.maxY = Scalar.infinity

variable {box other : Box Float} {point : Point Float}

/-- A fresh box is open. -/
theorem isOpen_empty : IsOpen .empty :=
  ⟨.inr rfl, .inr rfl, by decide, by decide⟩

/-- A finite box is open. -/
theorem IsFinite.isOpen (finite : box.IsFinite) : box.IsOpen :=
  ⟨.inl finite.minX, .inl finite.minY, finite.maxX, finite.maxY⟩

/-- An open box that grows to a finite point is finite. -/
theorem IsOpen.expand (opened : box.IsOpen) (seen : point.IsFinite) :
    (box.expand point).IsFinite where
  minX := isFinite_widen_fst opened.minX seen.1
  minY := isFinite_widen_fst opened.minY seen.2
  maxX := isFinite_widen_snd opened.maxX seen.1
  maxY := isFinite_widen_snd opened.maxY seen.2

/-- A spoiled box that grows to a finite point stays spoiled. -/
theorem IsSpoiled.expand (spoiled : box.IsSpoiled) (seen : point.IsFinite) :
    (box.expand point).IsSpoiled where
  minX := isFinite_widen_fst (.inl spoiled.minX) seen.1
  minY := isFinite_widen_fst (.inl spoiled.minY) seen.2
  maxX := by
    change (widen box.minX box.maxX point.x).2 = _
    rw [spoiled.maxX]
    exact widen_snd_of_infinity (.inl seen.1)
  maxY := by
    change (widen box.minY box.maxY point.y).2 = _
    rw [spoiled.maxY]
    exact widen_snd_of_infinity (.inl seen.2)

/-- An open box along a stroke with a point is finite. -/
theorem IsOpen.foldl_expand (opened : box.IsOpen) {path : Path Float}
    (seen : ∀ point ∈ path, point.IsFinite) (nonempty : path ≠ []) :
    (path.foldl Box.expand box).IsFinite :=
  foldl_of_ne_nil (fun _ point inside opened => opened.expand (seen point inside))
    (fun _ finite => finite.isOpen) nonempty opened

/-- The corners of a finite box. -/
theorem IsFinite.corners (finite : other.IsFinite) :
    Point.IsFinite ⟨other.minX, other.minY⟩ ∧ Point.IsFinite ⟨other.maxX, other.maxY⟩ :=
  ⟨⟨finite.minX, finite.minY⟩, finite.maxX, finite.maxY⟩

/-- An open box that a finite one is joined to is finite. -/
theorem IsOpen.merge (opened : box.IsOpen) (finite : other.IsFinite) :
    (box.merge other).IsFinite :=
  (opened.expand finite.corners.1).isOpen.expand finite.corners.2

/-- A spoiled box that a finite one is joined to stays spoiled. -/
theorem IsSpoiled.merge (spoiled : box.IsSpoiled) (finite : other.IsFinite) :
    (box.merge other).IsSpoiled :=
  (spoiled.expand finite.corners.1).expand finite.corners.2

/-- A fresh box that is joined sends the greatest corner to infinity, and then brings the
least one down to the origin at least. -/
theorem merge_empty (known : box.IsOpen ∨ box.IsSpoiled) : (box.merge .empty).IsSpoiled := by
  obtain ⟨⟨minX, minY⟩, maxX, maxY⟩ :
      (IsEnd box.minX ∧ IsEnd box.minY) ∧ IsEnd box.maxX ∧ IsEnd box.maxY := by
    rcases known with opened | spoiled
    · exact ⟨⟨opened.minX, opened.minY⟩, .inl opened.maxX, .inl opened.maxY⟩
    · exact ⟨⟨.inl spoiled.minX, .inl spoiled.minY⟩, .inr spoiled.maxX, .inr spoiled.maxY⟩
  have corner : box.expand ⟨Scalar.infinity, Scalar.infinity⟩ =
      ⟨box.minX, box.minY, Scalar.infinity, Scalar.infinity⟩ := by
    rw [Box.expand, widen_infinity minX maxX, widen_infinity minY maxY]
  have zero : (Scalar.ofNat 0 : Float).isFinite := by decide
  change ((box.expand ⟨Scalar.infinity, Scalar.infinity⟩).expand
    ⟨Scalar.ofNat 0, Scalar.ofNat 0⟩).IsSpoiled
  rw [corner]
  exact ⟨isFinite_widen_fst minX zero, isFinite_widen_fst minY zero,
    widen_snd_of_infinity (.inl zero), widen_snd_of_infinity (.inl zero)⟩

/-- A box that finite and fresh ones are joined to is open or spoiled. -/
theorem merge_isOpen_or_isSpoiled (known : box.IsOpen ∨ box.IsSpoiled)
    (added : other.IsFinite ∨ other = .empty) :
    (box.merge other).IsOpen ∨ (box.merge other).IsSpoiled := by
  rcases added with finite | rfl
  · exact known.imp (fun opened => (opened.merge finite).isOpen) (fun spoiled => spoiled.merge finite)
  · exact .inr (merge_empty known)

/-- A spoiled box that finite and fresh ones are joined to stays spoiled. -/
theorem IsSpoiled.merge_any (spoiled : box.IsSpoiled) (added : other.IsFinite ∨ other = .empty) :
    (box.merge other).IsSpoiled := by
  rcases added with finite | rfl
  · exact spoiled.merge finite
  · exact merge_empty (.inr spoiled)

end Box

end LaserCut
