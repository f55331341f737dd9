/-
# Statistics of the same numbers

Strokes whose coordinates are equal as numbers have statistics that are equal as
numbers.  The travel is even the same double, since only squares of differences
enter it; the ends of a box may differ in the sign of a zero, because they are
coordinates themselves.
-/

import Mathlib
import LaserCut.Proofs.Decimal.SameNumber
import LaserCut.Stats

namespace LaserCut

open Decimal (isSameNumber_of_beq)

/-- Whether the coordinates of two points are equal as numbers. -/
structure Point.IsSame (point other : Point Float) : Prop where
  x : point.x == other.x
  y : point.y == other.y

/-- Whether the ends of two boxes are equal as numbers. -/
structure Box.IsSame (box other : Box Float) : Prop where
  minX : box.minX == other.minX
  minY : box.minY == other.minY
  maxX : box.maxX == other.maxX
  maxY : box.maxY == other.maxY

/-- Whether two scopes have the same box as numbers and the same length. -/
structure Scope.IsSame (scope other : Scope Float) : Prop where
  box : scope.box.IsSame other.box
  length : scope.length = other.length

namespace Path

variable {path other : Path Float}

/-- The distances between the same points are the same. -/
theorem distance_eq {start stop start' stop' : Point Float} (same : start.IsSame start')
    (same_stop : stop.IsSame stop') : start.distance stop = start'.distance stop' := by
  have x := (isSameNumber_of_beq same_stop.x).square_sub (isSameNumber_of_beq same.x)
  have y := (isSameNumber_of_beq same_stop.y).square_sub (isSameNumber_of_beq same.y)
  change Float.sqrt ((stop.x - start.x) * (stop.x - start.x) +
      (stop.y - start.y) * (stop.y - start.y)) =
    Float.sqrt ((stop'.x - start'.x) * (stop'.x - start'.x) +
      (stop'.y - start'.y) * (stop'.y - start'.y))
  rw [x, y]

/-- The lines of the same points have the same lengths. -/
theorem distances_eq (same : List.Forall₂ Point.IsSame path other) :
    (lines path).map (fun line => line.1.distance line.2) =
      (lines other).map (fun line => line.1.distance line.2) := by
  induction same with
  | nil => rfl
  | cons first rest ih =>
      cases rest with
      | nil => rfl
      | cons second rest =>
          have step := distance_eq first second
          simpa [lines, step] using ih

/-- A stroke through the same points is as long. -/
theorem travel_eq (same : List.Forall₂ Point.IsSame path other) :
    Path.travel path = Path.travel other := by
  have folded (path : Path Float) : Path.travel path =
      ((lines path).map fun line => line.1.distance line.2).foldl (· + ·) (-Scalar.ofNat 0) := by
    rw [List.foldl_map]
    rfl
  rw [folded, folded, distances_eq same]

end Path

namespace Box

variable {box other : Box Float}

/-- The ends of an axis move in the same way. -/
theorem isSame_widen {least least' greatest greatest' coordinate coordinate' : Float}
    (low : least == least') (high : greatest == greatest') (seen : coordinate == coordinate') :
    ((widen least greatest coordinate).1 == (widen least' greatest' coordinate').1) = true ∧
      ((widen least greatest coordinate).2 == (widen least' greatest' coordinate').2) = true := by
  have below : coordinate < least ↔ coordinate' < least' :=
    (isSameNumber_of_beq seen).lt_iff (isSameNumber_of_beq low)
  have above : greatest < coordinate ↔ greatest' < coordinate' :=
    (isSameNumber_of_beq high).lt_iff (isSameNumber_of_beq seen)
  unfold widen
  by_cases first : coordinate < least
  · rw [if_pos first, if_pos (below.mp first)]
    exact ⟨seen, high⟩
  · rw [if_neg first, if_neg (mt below.mpr first)]
    by_cases second : greatest < coordinate
    · rw [if_pos second, if_pos (above.mp second)]
      exact ⟨low, seen⟩
    · rw [if_neg second, if_neg (mt above.mpr second)]
      exact ⟨low, high⟩

/-- A box grows to the same point in the same way. -/
theorem IsSame.expand (same : box.IsSame other) {point point' : Point Float}
    (seen : point.IsSame point') : (box.expand point).IsSame (other.expand point') := by
  have x := isSame_widen same.minX same.maxX seen.x
  have y := isSame_widen same.minY same.maxY seen.y
  exact ⟨x.1, y.1, x.2, y.2⟩

/-- Boxes are joined in the same way. -/
theorem IsSame.merge (same : box.IsSame other) {added added' : Box Float}
    (seen : added.IsSame added') : (box.merge added).IsSame (other.merge added') := by
  have least : Point.IsSame ⟨added.minX, added.minY⟩ ⟨added'.minX, added'.minY⟩ :=
    ⟨seen.minX, seen.minY⟩
  have greatest : Point.IsSame ⟨added.maxX, added.maxY⟩ ⟨added'.maxX, added'.maxY⟩ :=
    ⟨seen.maxX, seen.maxY⟩
  exact (same.expand least).expand greatest

/-- A box grows along the same stroke in the same way. -/
theorem IsSame.foldl_expand (same : box.IsSame other) {path path' : Path Float}
    (seen : List.Forall₂ Point.IsSame path path') :
    (path.foldl Box.expand box).IsSame (path'.foldl Box.expand other) := by
  induction seen generalizing box other with
  | nil => exact same
  | cons first _ ih => exact ih (same.expand first)

/-- The ends of the empty box are numbers. -/
theorem isSame_empty : Box.IsSame .empty .empty :=
  ⟨by decide, by decide, by decide, by decide⟩

end Box

namespace Scope

variable {scope other : Scope Float}

theorem isSame_empty : Scope.IsSame .empty .empty :=
  ⟨Box.isSame_empty, rfl⟩

/-- A stroke through the same points is added in the same way. -/
theorem IsSame.addStroke (same : scope.IsSame other) {path path' : Path Float}
    (seen : List.Forall₂ Point.IsSame path path') :
    (scope.addStroke path).IsSame (other.addStroke path') := by
  have long : 1 < path.length ↔ 1 < path'.length := by rw [seen.length_eq]
  unfold Scope.addStroke
  by_cases line : 1 < path.length
  · rw [if_pos line, if_pos (long.mp line)]
    exact ⟨same.box.foldl_expand seen, by rw [same.length, Path.travel_eq seen]⟩
  · rw [if_neg line, if_neg (mt long.mpr line)]
    exact same

/-- The same strokes have the same scope. -/
theorem isSame_ofPaths {paths paths' : List (Path Float)}
    (seen : List.Forall₂ (List.Forall₂ Point.IsSame) paths paths') :
    (ofPaths paths).IsSame (ofPaths paths') := by
  have step (scope other : Scope Float) (same : scope.IsSame other) :
      (paths.foldl Scope.addStroke scope).IsSame (paths'.foldl Scope.addStroke other) := by
    induction seen generalizing scope other with
    | nil => exact same
    | cons first _ ih => exact ih _ _ (same.addStroke first)
  exact step _ _ Scope.isSame_empty

/-- Scopes are joined in the same way. -/
theorem IsSame.merge (same : scope.IsSame other) {added added' : Scope Float}
    (seen : added.IsSame added') : (scope.merge added).IsSame (other.merge added') :=
  ⟨same.box.merge seen.box, by simp only [Scope.merge, same.length, seen.length]⟩

end Scope

namespace Keyed

variable {α β γ δ : Type} {R : α → β → Prop} {S : γ → δ → Prop}

/-- Whether two have the same keys in the same order, with values that are
related. -/
def Agree (R : α → β → Prop) (keyed : Keyed α) (other : Keyed β) : Prop :=
  List.Forall₂ (fun entry entry' => entry.1 = entry'.1 ∧ R entry.2 entry'.2) keyed.entries
    other.entries

namespace Agree

variable {keyed : Keyed α} {other : Keyed β}

/-- The keys are the same. -/
theorem keys (agree : Agree R keyed other) : keyed.keys = other.keys := by
  unfold Keyed.keys
  unfold Agree at agree
  generalize keyed.entries = entries at agree
  generalize other.entries = entries' at agree
  induction agree with
  | nil => rfl
  | cons first _ ih => rw [List.map_cons, List.map_cons, first.1, ih]

/-- The values under a key are related. -/
theorem get? (agree : Agree R keyed other) (key : String) :
    Option.Rel R (keyed.get? key) (other.get? key) := by
  unfold Keyed.get?
  unfold Agree at agree
  generalize keyed.entries = entries at agree
  generalize other.entries = entries' at agree
  induction agree with
  | nil => exact .none
  | @cons entry entry' _ _ first _ ih =>
      rw [List.lookup_cons, List.lookup_cons, ← first.1]
      cases key == entry.1 with
      | true => exact .some first.2
      | false => exact ih

/-- Values that are changed in the same way stay related. -/
theorem map (agree : Agree R keyed other) {f : α → γ} {g : β → δ}
    (changes : ∀ value value', R value value' → S (f value) (g value')) :
    Agree S (keyed.map f) (other.map g) := by
  unfold Agree Keyed.map
  rw [List.forall₂_map_left_iff, List.forall₂_map_right_iff]
  exact agree.imp fun _ _ first => ⟨first.1, changes _ _ first.2⟩

/-- Placing related values keeps the rest related. -/
theorem insert (agree : Agree R keyed other) (key : String) {value : α} {value' : β}
    (related : R value value') : Agree R (keyed.insert key value) (other.insert key value') := by
  unfold Agree Keyed.insert
  dsimp only
  unfold Agree at agree
  generalize keyed.entries = entries at agree
  generalize other.entries = entries' at agree
  induction agree with
  | nil => exact .cons ⟨rfl, related⟩ .nil
  | @cons entry entry' _ _ first rest ih =>
      rw [place, place, ← first.1]
      by_cases here : entry.1 = key
      · rw [if_pos here, if_pos here]
        exact .cons ⟨rfl, related⟩ rest
      · rw [if_neg here, if_neg here]
        exact .cons first ih

end Agree

end Keyed

namespace Stats

/-- The same scopes of colors together are the same. -/
theorem isSame_wholeOfColors {colors other : Stats} (agree : Keyed.Agree Scope.IsSame colors other) :
    (wholeOfColors colors).IsSame (wholeOfColors other) := by
  unfold wholeOfColors
  rw [agree.keys]
  refine List.foldl_rel Scope.isSame_empty fun color _ whole whole' same => ?_
  have related := agree.get? color
  generalize colors.get? color = found at related ⊢
  generalize other.get? color = found' at related ⊢
  cases related with
  | none => exact same
  | some seen => exact same.merge seen

/-- Statistics of the same strokes are the same, where there are no rasters. -/
theorem agree_compute {colors other : ColorPaths}
    (agree : Keyed.Agree (List.Forall₂ (List.Forall₂ Point.IsSame)) colors other) (runway : Float) :
    Keyed.Agree Scope.IsSame (compute colors [] runway) (compute other [] runway) := by
  have byColor : Keyed.Agree Scope.IsSame (ofColors colors) (ofColors other) :=
    agree.map fun _ _ seen => Scope.isSame_ofPaths seen
  exact byColor.insert wholeName (isSame_wholeOfColors byColor)

end Stats

end LaserCut
