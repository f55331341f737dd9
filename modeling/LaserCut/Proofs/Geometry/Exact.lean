/-
# Dividing lines over exact numbers

Lengths, boxes and divided lines are computed with the same steps whatever the numbers are.
Over real numbers the steps do what they are meant to do: the parts of a divided line are equal
and no longer than the limit, and the stroke is as long as before.  Its box is the same too,
although that depends on the order of the points: the new coordinates of a line go from one end
to the other, and a coordinate on the way never moves an end of an axis farther than the end of
the line does.

Real numbers have no infinity.  Any number may stand in its place, because the first point of a
stroke settles an axis wherever its ends have been.
-/

import Mathlib
import LaserCut.Proofs.Geometry.Division
import LaserCut.Proofs.Geometry.Reach

namespace LaserCut

/-- The real number that stands in the place of infinity. -/
class Sentinel where
  value : ℝ

/-- Exact arithmetic. -/
noncomputable instance [Sentinel] : Scalar ℝ where
  decideLt := Classical.decRel _
  ofNat n := n
  infinity := Sentinel.value
  squareRoot := Real.sqrt
  ceiling value := ⌈value⌉₊

namespace Point

variable [Sentinel] (start stop : Point ℝ)

/-- The distance of two points. -/
theorem distance_eq_sqrt : start.distance stop = √(start.distanceSquared stop) :=
  rfl

/-- The square of a distance. -/
theorem distanceSquared_eq :
    start.distanceSquared stop = (stop.x - start.x) ^ 2 + (stop.y - start.y) ^ 2 := by
  rw [sq, sq]
  rfl

/-- The first coordinate of a point of a line. -/
theorem lerp_x (t : ℝ) : (start.lerp stop t).x = start.x + (stop.x - start.x) * t := by
  change start.x * ((1 : ℕ) - t) + stop.x * t = _
  rw [Nat.cast_one]
  ring

/-- The second coordinate of a point of a line. -/
theorem lerp_y (t : ℝ) : (start.lerp stop t).y = start.y + (stop.y - start.y) * t := by
  change start.y * ((1 : ℕ) - t) + stop.y * t = _
  rw [Nat.cast_one]
  ring

/-- A line starts where it starts. -/
theorem lerp_zero : start.lerp stop 0 = start := by
  have split : start.lerp stop 0 = ⟨(start.lerp stop 0).x, (start.lerp stop 0).y⟩ := rfl
  rw [split, lerp_x, lerp_y, mul_zero, mul_zero, add_zero, add_zero]

/-- A line stops where it stops. -/
theorem lerp_one : start.lerp stop 1 = stop := by
  have split : start.lerp stop 1 = ⟨(start.lerp stop 1).x, (start.lerp stop 1).y⟩ := rfl
  rw [split, lerp_x, lerp_y, mul_one, mul_one, add_sub_cancel, add_sub_cancel]

/-- Two points of a line are as far apart as their parameters say. -/
theorem distance_lerp_lerp (s t : ℝ) :
    (start.lerp stop s).distance (start.lerp stop t) = |t - s| * start.distance stop := by
  have square : (start.lerp stop s).distanceSquared (start.lerp stop t) =
      (t - s) ^ 2 * start.distanceSquared stop := by
    rw [distanceSquared_eq, distanceSquared_eq, lerp_x, lerp_x, lerp_y, lerp_y]
    ring
  rw [distance_eq_sqrt, distance_eq_sqrt, square, Real.sqrt_mul (sq_nonneg _), Real.sqrt_sq_eq_abs]

/-- A line that is not long is no longer than the limit. -/
theorem distance_le_iff {limit : ℝ} (positive : 0 < limit) :
    start.distance stop ≤ limit ↔ ¬ limit * limit < start.distanceSquared stop := by
  rw [distance_eq_sqrt, Real.sqrt_le_left positive.le, sq, not_lt]

end Point

namespace Box

variable [Sentinel] {ends : ℝ × ℝ} {seen next stop : ℝ}

/-- A coordinate below an axis moves its least end. -/
theorem widen_of_lt {least : ℝ} (below : next < least) (greatest : ℝ) :
    widen least greatest next = (next, greatest) :=
  if_pos below

/-- Any other coordinate moves the greatest end if it is beyond that. -/
theorem widen_of_le {least : ℝ} (above : least ≤ next) (greatest : ℝ) :
    widen least greatest next = (least, max greatest next) := by
  have kept : widen least greatest next =
      if greatest < next then (least, next) else (least, greatest) := if_neg above.not_gt
  rw [kept]
  split_ifs with further
  · rw [max_eq_right further.le]
  · rw [max_eq_left (not_lt.mp further)]

/-- The ends of an axis fit the coordinate that it has seen last.  It may be beyond the greatest
end only if it has just moved the least one. -/
def HasSeen (ends : ℝ × ℝ) (seen : ℝ) : Prop :=
  ends.1 ≤ seen ∧ (seen ≤ ends.2 ∨ seen = ends.1)

/-- Whatever the ends have been, they fit a coordinate that is seen. -/
theorem hasSeen_widen (least greatest next : ℝ) : HasSeen (widen least greatest next) next := by
  rcases lt_or_ge next least with below | above
  · rw [widen_of_lt below]
    exact ⟨le_rfl, .inr rfl⟩
  · rw [widen_of_le above]
    exact ⟨above, .inl (le_max_right _ _)⟩

/-- A coordinate on the way to another one leaves no trace. -/
theorem widen_on_way (known : HasSeen ends seen)
    (order : seen ≤ next ∧ next ≤ stop ∨ seen > next ∧ next > stop) :
    widen (widen ends.1 ends.2 next).1 (widen ends.1 ends.2 next).2 stop =
      widen ends.1 ends.2 stop := by
  obtain ⟨low, high⟩ := known
  rcases order with ⟨first, second⟩ | ⟨first, second⟩
  · rw [widen_of_le (low.trans first), widen_of_le (low.trans (first.trans second)),
      widen_of_le (low.trans (first.trans second)), max_assoc, max_eq_right second]
  · rcases lt_or_ge next ends.1 with below | above
    · rw [widen_of_lt below, widen_of_lt second, widen_of_lt (second.trans below)]
    · have inside : next ≤ ends.2 :=
        first.le.trans (high.resolve_right (above.trans_lt first).ne')
      rw [widen_of_le above, max_eq_left inside]

/-- Coordinates that go from one to another in one direction leave no trace. -/
theorem widenAll_on_way {between : List ℝ} (known : HasSeen ends seen)
    (order : (seen :: (between ++ [stop])).Pairwise (· ≤ ·) ∨
      (seen :: (between ++ [stop])).Pairwise (· > ·)) :
    widenAll ends (between ++ [stop]) = widen ends.1 ends.2 stop := by
  induction between generalizing ends seen with
  | nil => rfl
  | cons next between ih =>
      have last : stop ∈ between ++ [stop] := by simp
      have step : seen ≤ next ∧ next ≤ stop ∨ seen > next ∧ next > stop := by
        refine order.imp (fun up => ?_) (fun down => ?_)
        · obtain ⟨first, rest⟩ := List.pairwise_cons.mp up
          exact ⟨first next List.mem_cons_self, (List.pairwise_cons.mp rest).1 stop last⟩
        · obtain ⟨first, rest⟩ := List.pairwise_cons.mp down
          exact ⟨first next List.mem_cons_self, (List.pairwise_cons.mp rest).1 stop last⟩
      have later := ih (hasSeen_widen ends.1 ends.2 next)
        (order.imp List.Pairwise.of_cons List.Pairwise.of_cons)
      exact later.trans (widen_on_way known step)

end Box

namespace Path

section Lines

variable {α : Type}

/-- The lines of a stroke are those up to a point and those from there on. -/
theorem lines_append_cons (front : Path α) (middle : Point α) (rest : Path α) :
    lines (front ++ middle :: rest) = lines (front ++ [middle]) ++ lines (middle :: rest) := by
  induction front with
  | nil => rfl
  | cons first front ih =>
      cases front with
      | nil => rfl
      | cons second front => exact congrArg ((first, second) :: ·) ih

/-- The lines of a stroke whose points are numbered. -/
theorem lines_map_range (point : Nat → Point α) (count : Nat) :
    lines ((List.range (count + 1)).map point) =
      (List.range count).map fun k => (point k, point (k + 1)) := by
  induction count with
  | zero => rfl
  | succ count ih =>
      have front : (List.range (count + 1)).map point =
          (List.range count).map point ++ [point count] := by
        rw [List.range_succ, List.map_append, List.map_singleton]
      rw [List.range_succ, List.map_append, List.map_singleton, front, List.append_assoc,
        List.singleton_append, lines_append_cons, ← front, ih, List.range_succ, List.map_append]
      rfl

end Lines

variable [Sentinel] {limit : ℝ}

/-- A long line has a part, and its parts are no longer than the limit. -/
theorem parts_spec (positive : 0 < limit) {start stop : Point ℝ}
    (long : limit * limit < start.distanceSquared stop) :
    0 < parts limit start stop ∧ start.distance stop / parts limit start stop ≤ limit := by
  have above : limit < start.distance stop :=
    not_le.mp fun short => (start.distance_le_iff stop positive).mp short long
  have enough : start.distance stop / limit ≤ parts limit start stop := Nat.le_ceil _
  have parted : 0 < parts limit start stop :=
    Nat.ceil_pos.mpr (div_pos (positive.trans above) positive)
  refine ⟨parted, ?_⟩
  rw [div_le_iff₀ positive] at enough
  rw [div_le_iff₀ (by exact_mod_cast parted), mul_comm]
  exact enough

/-- The ends of a line with the points between them are its points at equal distances. -/
theorem cons_dividers_concat {n : Nat} (positive : 0 < n) (start stop : Point ℝ) :
    start :: (dividers n start stop ++ [stop]) =
      (List.range (n + 1)).map fun k : Nat => start.lerp stop (k / n) := by
  obtain ⟨count, rfl⟩ := Nat.exists_eq_add_one_of_ne_zero positive.ne'
  have whole : ((count + 1 : Nat) : ℝ) / (count + 1 : Nat) = 1 :=
    div_self (Nat.cast_ne_zero.mpr positive.ne')
  have inner : dividers (count + 1) start stop =
      (List.range' 1 count).map fun k : Nat => start.lerp stop (k / (count + 1 : Nat)) := rfl
  rw [List.range_eq_range', List.range'_succ, List.range'_1_concat, List.map_cons, List.map_append,
    List.map_singleton, Nat.add_comm 0 1, Nat.add_comm 1 count, whole, Point.lerp_one,
    Nat.cast_zero, zero_div, Point.lerp_zero, inner]

/-- The coordinates at equal distances on an axis all go in one direction. -/
theorem pairwise_on_axis {n : Nat} (positive : 0 < n) (first last : ℝ) :
    ((List.range (n + 1)).map fun k : Nat => first + (last - first) * (k / n)).Pairwise (· ≤ ·) ∨
      ((List.range (n + 1)).map fun k : Nat => first + (last - first) * (k / n)).Pairwise
        (· > ·) := by
  have parts : (0 : ℝ) < n := Nat.cast_pos.mpr positive
  have later {k m : Nat} (before : k < m) : (k : ℝ) / n < m / n :=
    (div_lt_div_iff_of_pos_right parts).mpr (Nat.cast_lt.mpr before)
  rw [List.pairwise_map, List.pairwise_map]
  rcases le_or_gt first last with up | down
  · refine .inl (List.pairwise_lt_range.imp fun before => ?_)
    exact add_le_add_right (mul_le_mul_of_nonneg_left (later before).le (sub_nonneg.mpr up)) _
  · refine .inr (List.pairwise_lt_range.imp fun before => ?_)
    exact add_lt_add_right (mul_lt_mul_of_neg_left (later before) (sub_neg.mpr down)) _

/-- The lengths of the lines of a stroke. -/
noncomputable def lengths (path : Path ℝ) : List ℝ :=
  (lines path).map fun line => line.1.distance line.2

/-- The length of a stroke is the sum of those of its lines. -/
theorem travel_eq_sum (path : Path ℝ) : travel path = (lengths path).sum := by
  have start : -Scalar.ofNat 0 = (0 : ℝ) := by
    change -((0 : ℕ) : ℝ) = 0
    rw [Nat.cast_zero, neg_zero]
  rw [travel, start, lengths, List.sum_eq_foldl, List.foldl_map]

/-- The parts of a line are equal. -/
theorem lengths_dividers {n : Nat} (positive : 0 < n) (start stop : Point ℝ) :
    lengths (start :: (dividers n start stop ++ [stop])) =
      List.replicate n (start.distance stop / n) := by
  have part (k : Nat) :
      (start.lerp stop (k / n)).distance (start.lerp stop ((k + 1 : Nat) / n)) =
        start.distance stop / n := by
    have step : ((k + 1 : Nat) : ℝ) / n - k / n = 1 / n := by
      rw [Nat.cast_add_one, ← sub_div, add_sub_cancel_left]
    rw [Point.distance_lerp_lerp, step, abs_of_nonneg (by positivity), one_div_mul_eq_div]
  rw [cons_dividers_concat positive, lengths, lines_map_range, List.map_map]
  refine List.eq_replicate_iff.mpr ⟨by simp, fun length listed => ?_⟩
  obtain ⟨k, -, rfl⟩ := List.mem_map.mp listed
  exact part k

/-- A line that is treated has no part beyond the limit, and its length is that of its parts. -/
theorem lengths_inserted (positive : 0 < limit) (start stop : Point ℝ) :
    (∀ length ∈ lengths (start :: (inserted limit start stop ++ [stop])), length ≤ limit) ∧
      (lengths (start :: (inserted limit start stop ++ [stop]))).sum = start.distance stop := by
  by_cases long : limit * limit < start.distanceSquared stop
  · obtain ⟨parted, small⟩ := parts_spec positive long
    have number : ((parts limit start stop : Nat) : ℝ) ≠ 0 := Nat.cast_ne_zero.mpr parted.ne'
    rw [inserted_of_long long, lengths_dividers parted, List.sum_replicate, nsmul_eq_mul,
      mul_div_cancel₀ _ number]
    exact ⟨fun length listed => (List.eq_of_mem_replicate listed).trans_le small, rfl⟩
  · have whole : lengths [start, stop] = [start.distance stop] := rfl
    rw [inserted_of_not_long long, List.nil_append, whole, List.sum_singleton]
    refine ⟨fun length listed => ?_, rfl⟩
    rw [List.mem_singleton.mp listed]
    exact (start.distance_le_iff stop positive).mpr long

/-- The lines of a divided stroke are the parts of its first line and the lines of the rest. -/
theorem lengths_divided_cons_cons (limit : ℝ) (start stop : Point ℝ) (rest : Path ℝ) :
    lengths (divided limit (start :: stop :: rest)) =
      lengths (start :: (inserted limit start stop ++ [stop])) ++
        lengths (divided limit (stop :: rest)) := by
  obtain ⟨later, known⟩ := divided_cons limit stop rest
  rw [divided_cons_cons, known, lengths, lines_append_cons, List.map_append]
  rfl

/-- No line of a divided stroke is longer than the limit, and the stroke is as long as before. -/
theorem lengths_divided (positive : 0 < limit) (path : Path ℝ) :
    (∀ length ∈ lengths (divided limit path), length ≤ limit) ∧
      (lengths (divided limit path)).sum = (lengths path).sum := by
  induction path with
  | nil => exact ⟨nofun, rfl⟩
  | cons start rest ih =>
      cases rest with
      | nil => exact ⟨nofun, rfl⟩
      | cons stop rest =>
          obtain ⟨small, same⟩ := lengths_inserted positive start stop
          have whole : lengths (start :: stop :: rest) =
              start.distance stop :: lengths (stop :: rest) := rfl
          rw [lengths_divided_cons_cons, List.sum_append, same, ih.2, whole, List.sum_cons]
          exact ⟨List.forall_mem_append.mpr ⟨small, ih.1⟩, rfl⟩

/-- Dividing a stroke without a long line changes nothing. -/
theorem divided_of_short {path : Path ℝ}
    (short : ∀ line ∈ lines path, ¬ limit * limit < line.1.distanceSquared line.2) :
    divided limit path = path := by
  induction path with
  | nil => rfl
  | cons start rest ih =>
      cases rest with
      | nil => rfl
      | cons stop rest =>
          rw [lines_cons_cons] at short
          obtain ⟨first, later⟩ := List.forall_mem_cons.mp short
          rw [divided, inserted_of_not_long first, List.nil_append, ih later]

/-- What is left of a stroke is the divided one, under a positive limit. -/
theorem segmentized_eq_divided (positive : 0 < limit) (path : Path ℝ) :
    segmentized limit path = divided limit path := by
  cases known : segmentize? limit path with
  | none =>
      rw [segmentized, known, Option.getD_none]
      rcases segmentize?_eq_none_iff.mp known with few | negative | short
      · exact (divided_of_short (by simp [lines_eq_nil few])).symm
      · exact absurd (by simpa [Scalar.ofNat] using positive) negative
      · exact (divided_of_short short).symm
  | some result =>
      rw [segmentized, known, Option.getD_some]
      exact (of_segmentize?_eq_some known).2.symm

/-- The new points of a line leave no trace on an axis that has seen its start. -/
theorem widenAll_dividers {n : Nat} (positive : 0 < n) {start stop : Point ℝ}
    {coordinate : Point ℝ → ℝ} (straight : ∀ t, coordinate (start.lerp stop t) =
      coordinate start + (coordinate stop - coordinate start) * t) (least greatest : ℝ) :
    Box.widenAll (Box.widen least greatest (coordinate start))
        ((dividers n start stop ++ [stop]).map coordinate) =
      Box.widenAll (Box.widen least greatest (coordinate start)) [coordinate stop] := by
  have along : coordinate start :: ((dividers n start stop).map coordinate ++ [coordinate stop]) =
      (List.range (n + 1)).map fun k : Nat =>
        coordinate start + (coordinate stop - coordinate start) * (k / n) := by
    have numbered := congrArg (List.map coordinate) (cons_dividers_concat positive start stop)
    rw [List.map_cons, List.map_append, List.map_singleton, List.map_map] at numbered
    exact numbered.trans (List.map_congr_left fun k _ => straight _)
  rw [List.map_append, List.map_singleton]
  exact Box.widenAll_on_way (Box.hasSeen_widen least greatest (coordinate start))
    (along ▸ pairwise_on_axis positive (coordinate start) (coordinate stop))

/-- The new points of a line leave no trace in a box that has seen its start. -/
theorem foldl_expand_inserted (positive : 0 < limit) (start stop : Point ℝ) (box : Box ℝ) :
    (inserted limit start stop ++ [stop]).foldl Box.expand (box.expand start) =
      (box.expand start).expand stop := by
  by_cases long : limit * limit < start.distanceSquared stop
  · obtain ⟨parted, -⟩ := parts_spec positive long
    have x := widenAll_dividers parted (start.lerp_x stop) box.minX box.maxX
    have y := widenAll_dividers parted (start.lerp_y stop) box.minY box.maxY
    have seenX : ((box.expand start).minX, (box.expand start).maxX) =
        Box.widen box.minX box.maxX start.x := rfl
    have seenY : ((box.expand start).minY, (box.expand start).maxY) =
        Box.widen box.minY box.maxY start.y := rfl
    rw [inserted_of_long long, Box.foldl_expand_eq, seenX, seenY, x, y]
    rfl
  · rw [inserted_of_not_long long]
    rfl

/-- A box grows along a divided stroke as it does along the stroke. -/
theorem foldl_expand_divided (positive : 0 < limit) (path : Path ℝ) (box : Box ℝ) :
    (divided limit path).foldl Box.expand box = path.foldl Box.expand box := by
  induction path generalizing box with
  | nil => rfl
  | cons start rest ih =>
      cases rest with
      | nil => rfl
      | cons stop rest =>
          obtain ⟨later, known⟩ := divided_cons limit stop rest
          have next := ih (box.expand start)
          have between := foldl_expand_inserted positive start stop box
          rw [List.foldl_append] at between
          rw [known, List.foldl_cons, List.foldl_cons] at next
          rw [divided, known, List.foldl_cons, List.foldl_append, List.foldl_cons,
            List.foldl_cons, List.foldl_cons, ← next]
          exact congrArg (later.foldl Box.expand) between

/-- A divided stroke has a line just when the stroke has one. -/
theorem one_lt_length_divided (limit : ℝ) (path : Path ℝ) :
    1 < (divided limit path).length ↔ 1 < path.length := by
  match path with
  | [] => rfl
  | [_] => rfl
  | start :: stop :: rest =>
      obtain ⟨later, known⟩ := divided_cons limit stop rest
      simp [divided, known]

end Path

namespace Scope

variable [Sentinel] {limit : ℝ}

/-- A divided stroke adds to a scope what the stroke adds. -/
theorem addStroke_segmentized (positive : 0 < limit) (scope : Scope ℝ) (path : Path ℝ) :
    scope.addStroke (Path.segmentized limit path) = scope.addStroke path := by
  have travel : Path.travel (Path.divided limit path) = Path.travel path := by
    rw [Path.travel_eq_sum, Path.travel_eq_sum, (Path.lengths_divided positive path).2]
  rw [Path.segmentized_eq_divided positive, addStroke, addStroke,
    Path.foldl_expand_divided positive, travel]
  exact if_congr (Path.one_lt_length_divided limit path) rfl rfl

/-- The scope of divided strokes is that of the strokes. -/
theorem ofPaths_segmentizeAll (positive : 0 < limit) (paths : List (Path ℝ)) :
    ofPaths (Path.segmentizeAll limit paths).1 = ofPaths paths := by
  have step : (fun scope path => addStroke scope (Path.segmentized limit path)) = addStroke :=
    funext₂ (addStroke_segmentized positive)
  rw [Path.segmentizeAll_fst, ofPaths, ofPaths, List.foldl_map, step]

end Scope

namespace Path

/-- Over exact numbers, no line of a stroke whose long lines have been divided is beyond the limit,
so nothing is left to divide, and the stroke is as long as before.  Strokes have the same box and
length together, and so the statistics of a job, which are put together from these, stay right. -/
theorem segmentized_exact [Sentinel] {limit : ℝ} (positive : 0 < limit) :
    (∀ path : Path ℝ,
      (∀ line ∈ lines (segmentized limit path), line.1.distance line.2 ≤ limit) ∧
      segmentize? limit (segmentized limit path) = none ∧
      travel (segmentized limit path) = travel path) ∧
    (∀ paths : List (Path ℝ),
      Scope.ofPaths (segmentizeAll limit paths).1 = Scope.ofPaths paths) ∧
    (∀ (colors : Keyed (List (Path ℝ))) (engraved : Option (Scope ℝ)),
      Stats.assembled ((colors.map (segmentizeAll limit)).map Prod.fst) engraved =
        Stats.assembled colors engraved) ∧
    ∀ (colors : ColorPaths) (rasters : List Raster) (runway : Float),
      Stats.compute colors rasters runway = Stats.assembled colors
        (if rasters.isEmpty then none else some (Scope.ofRasters runway rasters)) := by
  refine ⟨fun path => ?_, Scope.ofPaths_segmentizeAll positive, fun colors engraved => ?_,
    fun _ _ _ => rfl⟩
  · obtain ⟨small, same⟩ := lengths_divided positive path
    have short := List.forall_mem_map.mp small
    rw [segmentized_eq_divided positive, travel_eq_sum, travel_eq_sum]
    refine ⟨short, segmentize?_eq_none_iff.mpr (.inr (.inr fun line inside => ?_)), same⟩
    exact (line.1.distance_le_iff line.2 positive).mp (short line inside)
  · have byColor : Stats.ofColors ((colors.map (segmentizeAll limit)).map Prod.fst) =
        Stats.ofColors colors := by
      apply Keyed.eq_of_entries
      simp only [Stats.ofColors, Keyed.map, List.map_map, Function.comp_def,
        Scope.ofPaths_segmentizeAll positive]
    unfold Stats.assembled
    rw [byColor]

/-- A descending line of length 15 is divided under the limit 4. -/
theorem segmentized_exact_descending :
    letI : Sentinel := ⟨1000⟩
    let path : Path ℝ := [⟨9, 12⟩, ⟨0, 0⟩]
    segmentize? 4 path ≠ none ∧
      (∀ line ∈ lines (segmentized 4 path), line.1.distance line.2 ≤ 4) ∧
      segmentize? 4 (segmentized 4 path) = none ∧ travel (segmentized 4 path) = 15 ∧
      Scope.ofPaths (segmentizeAll 4 [path]).1 = Scope.ofPaths [path] := by
  let sentinel : Sentinel := ⟨1000⟩
  intro path
  have positive : (0 : ℝ) < 4 := by norm_num
  obtain ⟨strokes, scopes, -⟩ := segmentized_exact positive
  obtain ⟨small, done, same⟩ := strokes path
  have square : Point.distanceSquared (⟨9, 12⟩ : Point ℝ) ⟨0, 0⟩ = 15 ^ 2 := by
    rw [Point.distanceSquared_eq]
    norm_num
  have long : (4 : ℝ) * 4 < Point.distanceSquared (⟨9, 12⟩ : Point ℝ) ⟨0, 0⟩ := by
    rw [square]
    norm_num
  have length : travel path = 15 := by
    have only : lengths path = [Point.distance (⟨9, 12⟩ : Point ℝ) ⟨0, 0⟩] := rfl
    rw [travel_eq_sum, only, List.sum_singleton, Point.distance_eq_sqrt, square,
      Real.sqrt_sq (by norm_num)]
  refine ⟨fun alone => ?_, small, done, same.trans length, scopes [path]⟩
  rcases segmentize?_eq_none_iff.mp alone with few | negative | short
  · exact absurd few (by decide)
  · exact negative (by simp [Scalar.ofNat])
  · exact short (⟨9, 12⟩, ⟨0, 0⟩) List.mem_cons_self long

end Path

end LaserCut
