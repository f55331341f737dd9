/-
# How far the box of strokes reaches

The box of strokes goes down to their least coordinates.  Upwards it may fall short, because a
coordinate that moves the least end of an axis is not compared with the greatest one: an axis
reaches up to the origin and to those coordinates that follow one that is not above them.  A
coordinate that is below all before it follows none, and the first one never does.  So strokes
stick out of their box just when their greatest coordinate is above the origin and the first
point alone has it.
-/

import Mathlib
import LaserCut.Proofs.Geometry.Join
import LaserCut.Proofs.Job.Outline

namespace LaserCut

open Decimal

namespace Box

section Axis

variable {α : Type} [Scalar α]

/-- The ends of an axis after all of several coordinates have been seen. -/
def widenAll (ends : α × α) (coordinates : List α) : α × α :=
  coordinates.foldl (fun ends coordinate => widen ends.1 ends.2 coordinate) ends

/-- The last coordinate meets the ends that the ones before it leave. -/
theorem widenAll_concat (ends : α × α) (before : List α) (last : α) :
    widenAll ends (before ++ [last]) =
      widen (widenAll ends before).1 (widenAll ends before).2 last := by
  rw [widenAll, List.foldl_append]
  rfl

/-- A box grows along a stroke on each axis by itself. -/
theorem foldl_expand_eq (path : Path α) (box : Box α) :
    path.foldl expand box =
      ⟨(widenAll (box.minX, box.maxX) (path.map Point.x)).1,
        (widenAll (box.minY, box.maxY) (path.map Point.y)).1,
        (widenAll (box.minX, box.maxX) (path.map Point.x)).2,
        (widenAll (box.minY, box.maxY) (path.map Point.y)).2⟩ := by
  induction path generalizing box with
  | nil => rfl
  | cons point rest ih => exact ih (box.expand point)

end Axis

end Box

/-- The coordinates that follow one that is not above them. -/
def followers (coordinates : List Float) : List Float :=
  (coordinates.zipIdx.filter fun entry =>
    (coordinates.take entry.2).any fun earlier => decide (earlier ≤ entry.1)).map Prod.fst

/-- A coordinate follows one that is not above it if some earlier one is not. -/
theorem mem_followers_iff {coordinates : List Float} {value : Float} :
    value ∈ followers coordinates ↔
      ∃ place, coordinates[place]? = some value ∧
        ∃ earlier ∈ coordinates.take place, earlier ≤ value := by
  simp only [followers, List.mem_map, List.mem_filter, List.any_eq_true, decide_eq_true_eq]
  constructor
  · rintro ⟨⟨value, place⟩, ⟨inside, known⟩, rfl⟩
    exact ⟨place, List.mem_zipIdx_iff_getElem?.mp inside, known⟩
  · rintro ⟨place, found, known⟩
    exact ⟨(value, place), ⟨List.mem_zipIdx_iff_getElem?.mpr found, known⟩, rfl⟩

/-- One more coordinate follows those before it, or none. -/
theorem followers_concat (coordinates : List Float) (last : Float) :
    followers (coordinates ++ [last]) = followers coordinates ++
      if ∃ earlier ∈ coordinates, earlier ≤ last then [last] else [] := by
  have before : ∀ entry ∈ coordinates.zipIdx,
      ((coordinates ++ [last]).take entry.2).any (fun earlier => decide (earlier ≤ entry.1)) =
        (coordinates.take entry.2).any fun earlier => decide (earlier ≤ entry.1) := by
    intro entry inside
    have within : entry.2 < coordinates.length := by
      simpa using List.snd_lt_of_mem_zipIdx inside
    rw [List.take_append_of_le_length within.le]
  rw [followers, List.zipIdx_append, List.filter_append, List.map_append,
    List.filter_congr before, followers]
  congr 1
  split_ifs with known <;> simp [known]

namespace IsExtremeOf

variable {order : Float → Float → Prop} {value former last : Float} {values : List Float}

/-- The extreme of several doubles and one more. -/
theorem concat (isOrder : IsOrder order) (all : IsExtremeOf order former values)
    (two : IsExtremeOf order value [former, last]) :
    IsExtremeOf order value (values ++ [last]) := by
  obtain ⟨first, second⟩ := List.forall_mem_cons.mp two.bound
  constructor
  · obtain ⟨found, inside, same⟩ := two.reached
    rcases List.mem_cons.mp inside with rfl | later
    · obtain ⟨one, among, equal⟩ := all.reached
      exact ⟨one, List.mem_append_left _ among, beq_trans same equal⟩
    · exact ⟨found, List.mem_append_right _ later, same⟩
  · exact List.forall_mem_append.mpr
      ⟨fun other inside => isOrder.trans first (all.bound other inside), second⟩

/-- Some number of several is the greatest. -/
theorem exists_isGreatestOf (finite : ∀ value ∈ values, value.isFinite) (nonempty : values ≠ []) :
    ∃ value, IsGreatestOf value values := by
  induction values using List.reverseRecOn with
  | nil => exact absurd rfl nonempty
  | append_singleton before last ih =>
      obtain ⟨earlier, latest⟩ := List.forall_mem_append.mp finite
      have number := (units_lt_of_isFinite (latest last (List.mem_singleton_self last))).1
      rcases eq_or_ne before [] with rfl | more
      · exact ⟨last, .singleton isOrder_ge number⟩
      · obtain ⟨former, all⟩ := ih earlier more
        have numeral := (le_iff.mp (all.bound _ (List.head_mem more))).2.1
        by_cases above : former < last
        · exact ⟨last, all.concat isOrder_ge (.pair (.inr (beq_refl number))
            (Decimal.le_of_lt above) (Decimal.le_refl number))⟩
        · exact ⟨former, all.concat isOrder_ge (.pair (.inl (beq_refl numeral))
            (Decimal.le_refl numeral) (Decimal.le_of_not_lt numeral number above))⟩

end IsExtremeOf

namespace Box

variable {coordinates : List Float}

/-- One more coordinate moves the least end, or else it follows one that is not above it. -/
theorem widen_spec {ends : Float × Float} {last : Float} (number : last.isNaN = false)
    (nonempty : coordinates ≠ []) (least : IsLeastOf ends.1 coordinates)
    (greatest : IsGreatestOf ends.2 (0 :: followers coordinates)) :
    IsLeastOf (widen ends.1 ends.2 last).1 (coordinates ++ [last]) ∧
      IsGreatestOf (widen ends.1 ends.2 last).2 (0 :: followers (coordinates ++ [last])) := by
  have low := (le_iff.mp (least.bound _ (List.head_mem nonempty))).1
  have high := (le_iff.mp (greatest.bound 0 List.mem_cons_self)).2.1
  rw [followers_concat]
  by_cases below : last < ends.1
  · have moved : widen ends.1 ends.2 last = (last, ends.2) := if_pos below
    have leads : ¬ ∃ earlier ∈ coordinates, earlier ≤ last := by
      rintro ⟨earlier, inside, under⟩
      exact Decimal.not_lt_of_le (Decimal.le_trans (least.bound earlier inside) under) below
    rw [moved, if_neg leads, List.append_nil]
    exact ⟨least.concat isOrder_le
      (.pair (.inr (beq_refl number)) (Decimal.le_of_lt below) (Decimal.le_refl number)), greatest⟩
  · have above : ends.1 ≤ last := Decimal.le_of_not_lt number low below
    obtain ⟨kept, top⟩ := widen_of_not_lt high number below
    obtain ⟨reached, inside, same⟩ := least.reached
    have follows : ∃ earlier ∈ coordinates, earlier ≤ last :=
      ⟨reached, inside, Decimal.le_trans (le_of_beq (beq_symm same)) above⟩
    rw [kept, if_pos follows, ← List.cons_append]
    exact ⟨least.concat isOrder_le (.pair (.inl (beq_refl low)) (Decimal.le_refl low) above),
      greatest.concat isOrder_ge top⟩

/-- The first coordinate is below infinity, so it moves the least end. -/
theorem widenAll_singleton {first : Float} (finite : first.isFinite) :
    widenAll (Scalar.infinity, Scalar.ofNat 0) [first] = (first, Scalar.ofNat 0) :=
  if_pos (lt_infinity finite)

/-- An axis goes from the least coordinate to the greatest of those that follow one that is not
above them, if that is above the origin. -/
theorem widenAll_spec (finite : ∀ coordinate ∈ coordinates, coordinate.isFinite)
    (nonempty : coordinates ≠ []) :
    IsLeastOf (widenAll (Scalar.infinity, Scalar.ofNat 0) coordinates).1 coordinates ∧
      IsGreatestOf (widenAll (Scalar.infinity, Scalar.ofNat 0) coordinates).2
        (0 :: followers coordinates) := by
  induction coordinates using List.reverseRecOn with
  | nil => exact absurd rfl nonempty
  | append_singleton before last ih =>
      obtain ⟨earlier, latest⟩ := List.forall_mem_append.mp finite
      have seen := latest last (List.mem_singleton_self last)
      have number := (units_lt_of_isFinite seen).1
      rcases eq_or_ne before [] with rfl | more
      · have zero : (Scalar.ofNat 0 : Float).isNaN = false := by decide
        rw [List.nil_append, widenAll_singleton seen]
        exact ⟨.singleton isOrder_le number, .singleton isOrder_ge zero⟩
      · obtain ⟨least, greatest⟩ := ih earlier more
        rw [widenAll_concat]
        exact widen_spec number more least greatest

/-- Whether the greatest coordinate is not above the origin, or not the first one alone. -/
def IsCovered (coordinates : List Float) : Prop :=
  ∃ greatest, IsGreatestOf greatest coordinates ∧
    (greatest ≤ 0 ∨ ∃ other ∈ coordinates.tail, (other == greatest) = true)

/-- Coordinates the first of which comes again are covered. -/
theorem isCovered_cons {first : Float} (finite : ∀ value ∈ first :: coordinates, value.isFinite)
    (again : ∃ other ∈ coordinates, (other == first) = true) :
    IsCovered (first :: coordinates) := by
  obtain ⟨greatest, all⟩ := IsExtremeOf.exists_isGreatestOf finite (by simp)
  refine ⟨greatest, all, .inr ?_⟩
  obtain ⟨reached, inside, same⟩ := all.reached
  rcases List.mem_cons.mp inside with rfl | later
  · obtain ⟨other, listed, equal⟩ := again
    exact ⟨other, listed, beq_trans equal (beq_symm same)⟩
  · exact ⟨reached, later, beq_symm same⟩

/-- An axis contains its coordinates just when they are covered. -/
theorem forall_mem_widenAll_iff (finite : ∀ coordinate ∈ coordinates, coordinate.isFinite)
    (nonempty : coordinates ≠ []) :
    (∀ coordinate ∈ coordinates,
      (widenAll (Scalar.infinity, Scalar.ofNat 0) coordinates).1 ≤ coordinate ∧
        coordinate ≤ (widenAll (Scalar.infinity, Scalar.ofNat 0) coordinates).2) ↔
      IsCovered coordinates := by
  obtain ⟨least, greatest⟩ := widenAll_spec finite nonempty
  generalize widenAll (Scalar.infinity, Scalar.ofNat 0) coordinates = ends at least greatest ⊢
  constructor
  · intro inside
    obtain ⟨top, all⟩ := IsExtremeOf.exists_isGreatestOf finite nonempty
    obtain ⟨highest, listed, equal⟩ := all.reached
    have below : top ≤ ends.2 :=
      Decimal.le_trans (le_of_beq equal) (inside highest listed).2
    refine ⟨top, all, ?_⟩
    obtain ⟨reached, among, same⟩ := greatest.reached
    have bound : top ≤ reached := Decimal.le_trans below (le_of_beq same)
    rcases List.mem_cons.mp among with rfl | follower
    · exact .inl bound
    · obtain ⟨place, found, earlier, before, -⟩ := mem_followers_iff.mp follower
      have later : place ≠ 0 := by
        rintro rfl
        exact List.not_mem_nil before
      obtain ⟨next, rfl⟩ := Nat.exists_eq_succ_of_ne_zero later
      have rest : reached ∈ coordinates.tail :=
        List.mem_of_getElem? (by rw [List.getElem?_tail]; exact found)
      exact .inr ⟨reached, rest, beq_of_le (all.bound _ (List.mem_of_mem_tail rest)) bound⟩
  · rintro ⟨top, all, covered⟩ coordinate listed
    refine ⟨least.bound _ listed, Decimal.le_trans (all.bound _ listed) ?_⟩
    rcases covered with origin | ⟨other, rest, same⟩
    · exact Decimal.le_trans origin (greatest.bound 0 List.mem_cons_self)
    · obtain ⟨first, later, rfl⟩ := List.exists_cons_of_ne_nil nonempty
      have follower : other ∈ followers (first :: later) := by
        obtain ⟨place, found⟩ := List.mem_iff_getElem?.mp rest
        refine mem_followers_iff.mpr ⟨place + 1, found, first, List.mem_cons_self, ?_⟩
        exact Decimal.le_trans (all.bound first List.mem_cons_self) (le_of_beq (beq_symm same))
      exact Decimal.le_trans (le_of_beq (beq_symm same))
        (greatest.bound other (List.mem_cons_of_mem _ follower))

/-- Whether a point lies in a box or on its border. -/
structure Covers (box : Box Float) (point : Point Float) : Prop where
  x : box.minX ≤ point.x ∧ point.x ≤ box.maxX
  y : box.minY ≤ point.y ∧ point.y ≤ box.maxY

/-- The box goes down to the least coordinates of points, and up to the greatest of those that
follow one that is not above them, if that is above the origin. -/
structure IsReachOf (box : Box Float) (points : Path Float) : Prop where
  minX : IsLeastOf box.minX (points.map Point.x)
  minY : IsLeastOf box.minY (points.map Point.y)
  maxX : IsGreatestOf box.maxX (0 :: followers (points.map Point.x))
  maxY : IsGreatestOf box.maxY (0 :: followers (points.map Point.y))

end Box

/-- The points of the strokes that have a line, in their order. -/
def Path.cutPoints {α : Type} (paths : List (Path α)) : Path α :=
  (paths.filter (2 ≤ ·.length)).flatten

/-- Whether a stroke comes back to the point where it starts. -/
def Path.EndsAtStart (path : Path Float) : Prop :=
  ∃ start ∈ path.head?, ∃ stop ∈ path.getLast?, stop.IsSame start

/-- The box of strokes grows along the points that are cut. -/
theorem Scope.box_foldl_addStroke {α : Type} [Scalar α] (paths : List (Path α))
    (scope : Scope α) :
    (paths.foldl addStroke scope).box = (Path.cutPoints paths).foldl Box.expand scope.box := by
  induction paths generalizing scope with
  | nil => rfl
  | cons path rest ih =>
      rw [List.foldl_cons, ih, Path.cutPoints, Path.cutPoints, addStroke]
      by_cases long : 1 < path.length
      · have kept : decide (2 ≤ path.length) = true := decide_eq_true long
        rw [if_pos long, List.filter_cons, if_pos kept, List.flatten_cons, List.foldl_append]
      · have dropped : ¬ decide (2 ≤ path.length) = true := mt of_decide_eq_true long
        rw [if_neg long, List.filter_cons, if_neg dropped]

namespace Scope

variable {paths : List (Path Float)}

/-- The points that are cut are points of strokes. -/
theorem isFinite_of_mem_cutPoints (finite : ∀ path ∈ paths, ∀ point ∈ path, point.IsFinite) :
    ∀ point ∈ Path.cutPoints paths, point.IsFinite := by
  intro point inside
  obtain ⟨path, listed, among⟩ := List.mem_flatten.mp inside
  exact finite path (List.mem_of_mem_filter listed) point among

/-- Something is cut if a stroke has a line. -/
theorem cutPoints_ne_nil (line : HasLine paths) : Path.cutPoints paths ≠ [] := by
  obtain ⟨path, inside, long⟩ := line
  refine List.flatten_ne_nil_iff.mpr ⟨path, List.mem_filter.mpr ⟨inside, decide_eq_true long⟩, ?_⟩
  exact List.ne_nil_of_length_pos (by omega)

/-- The ends of the box of strokes are those of the axes along the points that are cut. -/
theorem box_ofPaths (paths : List (Path Float)) :
    let start : Float × Float := (Scalar.infinity, Scalar.ofNat 0)
    (ofPaths paths).box =
      ⟨(Box.widenAll start ((Path.cutPoints paths).map Point.x)).1,
        (Box.widenAll start ((Path.cutPoints paths).map Point.y)).1,
        (Box.widenAll start ((Path.cutPoints paths).map Point.x)).2,
        (Box.widenAll start ((Path.cutPoints paths).map Point.y)).2⟩ :=
  (box_foldl_addStroke paths .empty).trans (Box.foldl_expand_eq _ _)

/-- A stroke with a line that comes back to its start has its first coordinates twice. -/
theorem exists_mem_tail_of_endsAtStart {path : Path Float} (more : Path Float)
    (long : 2 ≤ path.length) (ends : path.EndsAtStart) :
    ∃ start rest, path ++ more = start :: rest ∧ ∃ stop ∈ rest, stop.IsSame start := by
  obtain ⟨start, first, stop, last, same⟩ := ends
  obtain ⟨rest, rfl⟩ := List.head?_eq_some_iff.mp first
  refine ⟨start, rest ++ more, rfl, stop, List.mem_append_left _ ?_, same⟩
  have nonempty : rest ≠ [] := by
    rintro rfl
    exact absurd long (by simp)
  rw [Option.mem_def, List.getLast?_cons, List.getLast?_eq_some_getLast nonempty] at last
  rw [← Option.some.inj last]
  exact List.getLast_mem nonempty

/-- The box of strokes reaches on each axis from the least coordinate that is cut up to the
origin, or beyond it to the greatest one that follows one not above it.  So it contains all
points that are cut just when on each axis their greatest coordinate is not above the origin or
is not the first one alone, and this is so if the first stroke with a line comes back to its
start. -/
theorem box_ofPaths_reach (finite : ∀ path ∈ paths, ∀ point ∈ path, point.IsFinite)
    (line : HasLine paths) :
    (ofPaths paths).box.IsReachOf (Path.cutPoints paths) ∧
      ((∀ point ∈ Path.cutPoints paths, (ofPaths paths).box.Covers point) ↔
        Box.IsCovered ((Path.cutPoints paths).map Point.x) ∧
          Box.IsCovered ((Path.cutPoints paths).map Point.y)) ∧
      ((∃ first ∈ (paths.filter (2 ≤ ·.length)).head?, first.EndsAtStart) →
        ∀ point ∈ Path.cutPoints paths, (ofPaths paths).box.Covers point) := by
  have seen := isFinite_of_mem_cutPoints finite
  have nonempty := cutPoints_ne_nil line
  have finiteX : ∀ value ∈ (Path.cutPoints paths).map Point.x, value.isFinite :=
    List.forall_mem_map.mpr fun point inside => (seen point inside).1
  have finiteY : ∀ value ∈ (Path.cutPoints paths).map Point.y, value.isFinite :=
    List.forall_mem_map.mpr fun point inside => (seen point inside).2
  have nonemptyX : (Path.cutPoints paths).map Point.x ≠ [] := mt List.map_eq_nil_iff.mp nonempty
  have nonemptyY : (Path.cutPoints paths).map Point.y ≠ [] := mt List.map_eq_nil_iff.mp nonempty
  have covers : (∀ point ∈ Path.cutPoints paths, (ofPaths paths).box.Covers point) ↔
      Box.IsCovered ((Path.cutPoints paths).map Point.x) ∧
        Box.IsCovered ((Path.cutPoints paths).map Point.y) := by
    rw [← Box.forall_mem_widenAll_iff finiteX nonemptyX,
      ← Box.forall_mem_widenAll_iff finiteY nonemptyY, List.forall_mem_map,
      List.forall_mem_map, ← forall₂_and, box_ofPaths]
    exact forall₂_congr fun point _ =>
      ⟨fun known => ⟨known.x, known.y⟩, fun known => ⟨known.1, known.2⟩⟩
  refine ⟨?_, covers, ?_⟩
  · obtain ⟨minX, maxX⟩ := Box.widenAll_spec finiteX nonemptyX
    obtain ⟨minY, maxY⟩ := Box.widenAll_spec finiteY nonemptyY
    rw [box_ofPaths]
    exact ⟨minX, minY, maxX, maxY⟩
  · rintro ⟨first, leads, ends⟩
    obtain ⟨others, listed⟩ := List.head?_eq_some_iff.mp leads
    have inside : first ∈ paths.filter (2 ≤ ·.length) := by
      rw [listed]
      exact List.mem_cons_self
    have long : 2 ≤ first.length := by simpa using (List.mem_filter.mp inside).2
    obtain ⟨start, rest, points, stop, again, same⟩ :=
      exists_mem_tail_of_endsAtStart others.flatten long ends
    have split : Path.cutPoints paths = start :: rest := by
      rw [Path.cutPoints, listed, List.flatten_cons, points]
    rw [covers]
    rw [split, List.map_cons] at finiteX finiteY ⊢
    rw [List.map_cons]
    exact ⟨Box.isCovered_cons finiteX ⟨stop.x, List.mem_map_of_mem again, same.x⟩,
      Box.isCovered_cons finiteY ⟨stop.y, List.mem_map_of_mem again, same.y⟩⟩

/-- A stroke that comes back lies in its box, with a single point before it and a further stroke
behind it.  A stroke that only descends sticks out. -/
theorem box_ofPaths_closed_and_descending :
    let closed : List (Path Float) :=
      [[⟨9, 9⟩], [⟨5, -5⟩, ⟨3, -7.5⟩, ⟨5, -5⟩], [⟨1, -1⟩, ⟨-4, 2⟩]]
    let descending : List (Path Float) := [[⟨5, 5⟩, ⟨3, 3⟩, ⟨1, 1⟩]]
    (ofPaths closed).box.IsReachOf (Path.cutPoints closed) ∧
      (∀ point ∈ Path.cutPoints closed, (ofPaths closed).box.Covers point) ∧
      ¬ (Box.IsCovered ((Path.cutPoints descending).map Point.x) ∧
        Box.IsCovered ((Path.cutPoints descending).map Point.y)) := by
  intro closed descending
  have finite : ∀ path ∈ closed, ∀ point ∈ path, point.IsFinite := by
    simp only [closed, List.forall_mem_cons, List.not_mem_nil, Point.IsFinite, false_implies,
      implies_true, and_true]
    decide
  have finite' : ∀ path ∈ descending, ∀ point ∈ path, point.IsFinite := by
    simp only [descending, List.forall_mem_cons, List.not_mem_nil, Point.IsFinite, false_implies,
      implies_true, and_true]
    decide
  obtain ⟨reach, -, inside⟩ := box_ofPaths_reach finite
    ⟨[⟨1, -1⟩, ⟨-4, 2⟩], by simp [closed], by decide⟩
  obtain ⟨-, covered, -⟩ := box_ofPaths_reach finite'
    ⟨[⟨5, 5⟩, ⟨3, 3⟩, ⟨1, 1⟩], by simp [descending], by decide⟩
  refine ⟨reach, inside ⟨[⟨5, -5⟩, ⟨3, -7.5⟩, ⟨5, -5⟩], rfl, _, rfl, _, rfl, rfl, rfl⟩, ?_⟩
  rw [← covered]
  intro all
  have first := (all ⟨5, 5⟩ (by simp [descending, Path.cutPoints])).x.2
  exact absurd first (by decide +kernel)

end Scope

end LaserCut
