/-
# Where the points of a divided stroke stand

A stroke whose long lines have been divided holds its own points in their order.  Each of them
is followed by the new points of the line that it starts, so the next one stands as many places
later as the line has parts, and right behind it if the line is not long.

The lines are treated in one run, which puts nothing out before the first long line.  What it
puts out in the end is the stroke that is divided line by line.
-/

import Mathlib
import LaserCut.Proofs.Decimal.Roots

namespace LaserCut.Path

section Places

variable {α : Type} [Scalar α]

/-- What is inserted between the ends of a line: nothing unless it is long. -/
def inserted (limit : α) (start stop : Point α) : Path α :=
  if isLong limit start stop then dividers (parts limit start stop) start stop
  else []

/-- A stroke with its long lines divided. -/
def divided (limit : α) : Path α → Path α
  | start :: stop :: rest =>
      start :: (inserted limit start stop ++ divided limit (stop :: rest))
  | path => path

/-- How many places after the start of a line its end stands. -/
def stride (limit : α) (line : Point α × Point α) : Nat :=
  if limit * limit < line.1.distanceSquared line.2 then parts limit line.1 line.2 else 1

/-- The place of a point of a stroke, behind the lines before it. -/
def place (limit : α) (path : Path α) (index : Nat) : Nat :=
  (((lines path).take index).map (stride limit)).sum

/-- A stroke has its points at their places in the divided one, which starts and stops as it
does.  The end of a long line stands as many places after its start as the line has parts, and
the points at these parts stand between them; the end of any other line stands right behind its
start. -/
structure IsDivision (limit : α) (path result : Path α) : Prop where
  kept : ∀ index < path.length, result[place limit path index]? = path[index]?
  added : ∀ index line, (lines path)[index]? = some line →
    limit * limit < line.1.distanceSquared line.2 →
      0 < parts limit line.1 line.2 ∧
      ∀ k, 0 < k → k < parts limit line.1 line.2 →
        result[place limit path index + k]? = some
          (line.1.lerp line.2 (Scalar.ofNat k / Scalar.ofNat (parts limit line.1 line.2)))
  head : result.head? = path.head?
  last : result.getLast? = path.getLast?
  length : result.length =
    path.length + ((lines path).map fun line => stride limit line - 1).sum

variable {limit : α} {start stop : Point α} {rest : Path α}

omit [Scalar α] in
/-- The lines of a stroke with another point in front. -/
theorem lines_cons_cons (start stop : Point α) (rest : Path α) :
    lines (start :: stop :: rest) = (start, stop) :: lines (stop :: rest) :=
  rfl

/-- The first point keeps its place. -/
@[simp]
theorem place_zero (limit : α) (path : Path α) : place limit path 0 = 0 := by
  simp [place]

/-- The other points move behind the points of the first line. -/
@[simp]
theorem place_cons_succ (index : Nat) :
    place limit (start :: stop :: rest) (index + 1) =
      stride limit (start, stop) + place limit (stop :: rest) index := by
  simp [place, lines_cons_cons]

omit [Scalar α] in
/-- A stroke of one point has no line. -/
theorem lines_eq_nil {path : Path α} (few : path.length < 2) : lines path = [] := by
  match path with
  | [] => rfl
  | [_] => rfl
  | _ :: _ :: _ => simp at few

/-- A long line is divided at its parts. -/
theorem inserted_of_long (long : limit * limit < start.distanceSquared stop) :
    inserted limit start stop = dividers (parts limit start stop) start stop := by
  rw [inserted, isLong, if_pos (decide_eq_true long)]

/-- Nothing is inserted into a line that is not long. -/
theorem inserted_of_not_long (short : ¬ limit * limit < start.distanceSquared stop) :
    inserted limit start stop = [] := by
  rw [inserted, isLong, if_neg (by simpa using short)]

/-- The points of a line without its end fill the places up to the end. -/
theorem length_inserted
    (parted : limit * limit < start.distanceSquared stop → 0 < parts limit start stop) :
    (start :: inserted limit start stop).length = stride limit (start, stop) := by
  unfold stride
  split_ifs with long
  · have positive := parted long
    rw [inserted_of_long long, dividers, List.length_cons, List.length_map, List.length_range']
    exact Nat.sub_add_cancel positive
  · rw [inserted_of_not_long long]
    rfl

/-- The points of a line stand in their order. -/
theorem getElem?_dividers {n k : Nat} (positive : 0 < k) (inside : k < n)
    (start stop : Point α) :
    (start :: dividers n start stop)[k]? =
      some (start.lerp stop (Scalar.ofNat k / Scalar.ofNat n)) := by
  obtain ⟨before, rfl⟩ := Nat.exists_eq_add_one_of_ne_zero positive.ne'
  have within : before < n - 1 := by omega
  rw [List.getElem?_cons_succ, dividers, List.getElem?_map, List.getElem?_range' within,
    Option.map_some, one_mul, Nat.add_comm 1]

/-- A divided stroke is its first line without the end, and then the rest. -/
theorem divided_cons_cons (limit : α) (start stop : Point α) (rest : Path α) :
    divided limit (start :: stop :: rest) =
      (start :: inserted limit start stop) ++ divided limit (stop :: rest) :=
  rfl

/-- A divided stroke is never empty unless the stroke is. -/
theorem divided_cons (limit : α) (start : Point α) (rest : Path α) :
    ∃ later, divided limit (start :: rest) = start :: later := by
  cases rest with
  | nil => exact ⟨[], rfl⟩
  | cons stop rest => exact ⟨_, rfl⟩

/-- What is behind the points of the first line stands there by the stride of that line. -/
theorem getElem?_behind
    (parted : limit * limit < start.distanceSquared stop → 0 < parts limit start stop)
    (result : Path α) (index : Nat) :
    ((start :: inserted limit start stop) ++ result)[stride limit (start, stop) + index]? =
      result[index]? := by
  rw [← length_inserted parted, List.getElem?_append_right (Nat.le_add_right _ _),
    Nat.add_sub_cancel_left]

/-- A line in front of a divided stroke is divided with it. -/
theorem IsDivision.cons_cons {result : Path α}
    (parted : limit * limit < start.distanceSquared stop → 0 < parts limit start stop)
    (later : IsDivision limit (stop :: rest) result) :
    IsDivision limit (start :: stop :: rest) ((start :: inserted limit start stop) ++ result) where
  kept index inside := by
    cases index with
    | zero => rfl
    | succ index =>
        rw [place_cons_succ, getElem?_behind parted, List.getElem?_cons_succ]
        exact later.kept index (Nat.lt_of_succ_lt_succ inside)
  added index line found long := by
    cases index with
    | zero =>
        obtain rfl : (start, stop) = line := Option.some.inj found
        refine ⟨parted long, fun k positive within => ?_⟩
        have early : k < (start :: inserted limit start stop).length := by
          rw [length_inserted parted, stride, if_pos long]
          exact within
        rw [place_zero, Nat.zero_add, List.getElem?_append_left early, inserted_of_long long,
          getElem?_dividers positive within]
    | succ index =>
        obtain ⟨divisible, between⟩ := later.added index line found long
        refine ⟨divisible, fun k positive within => ?_⟩
        rw [place_cons_succ, Nat.add_assoc, getElem?_behind parted]
        exact between k positive within
  head := rfl
  last := by
    have nonempty : result ≠ [] := by
      rintro rfl
      exact absurd later.head (by simp)
    rw [List.getLast?_append_of_ne_nil _ nonempty, later.last]
    rfl
  length := by
    have positive : 0 < stride limit (start, stop) := by
      rw [← length_inserted parted]
      exact Nat.succ_pos _
    rw [List.length_append, length_inserted parted, later.length, lines_cons_cons, List.map_cons,
      List.sum_cons, List.length_cons, List.length_cons, List.length_cons]
    omega

/-- Dividing a stroke puts its points where they belong, if every long line has a part. -/
theorem isDivision_divided
    (parted : ∀ {start stop : Point α}, limit * limit < start.distanceSquared stop →
      0 < parts limit start stop) (path : Path α) :
    IsDivision limit path (divided limit path) := by
  induction path with
  | nil => exact ⟨nofun, nofun, rfl, rfl, rfl⟩
  | cons start rest ih =>
      cases rest with
      | nil =>
          refine ⟨fun index inside => ?_, nofun, rfl, rfl, rfl⟩
          obtain rfl : index = 0 := by simpa using inside
          rfl
      | cons stop rest =>
          rw [divided_cons_cons]
          exact ih.cons_cons parted

/-- Behind points that have been put out, a line adds its start and what is inserted into it. -/
theorem divideLine_some (path : Path α) (points : Array (Point α)) (index : Nat) :
    divideLine limit path (some points) ((start, stop), index) =
      some (points ++ (start :: inserted limit start stop)) := by
  by_cases long : isLong limit start stop <;> simp [divideLine, inserted, long]

/-- The first long line brings the points in front of it. -/
theorem divideLine_none_of_long (long : isLong limit start stop) (front : Path α) :
    divideLine limit (front ++ start :: stop :: rest) none ((start, stop), front.length) =
      some (front ++ start :: inserted limit start stop).toArray := by
  simp [divideLine, inserted, long]

/-- Before the first long line nothing is put out. -/
theorem divideLine_none_of_not_long (short : ¬ isLong limit start stop) (path : Path α)
    (index : Nat) : divideLine limit path none ((start, stop), index) = none := by
  rw [divideLine, if_neg short, Option.map_none]

/-- Once points have been put out, the rest of the stroke follows them divided. -/
theorem foldl_divideLine_some (path rest : Path α) (points : Array (Point α)) (index : Nat) :
    (((lines rest).zipIdx index).foldl (divideLine limit path) (some points)).map
        (fun points => points.toList ++ rest.getLast?.toList) =
      some (points.toList ++ divided limit rest) := by
  induction rest generalizing points index with
  | nil => rfl
  | cons start rest ih =>
      cases rest with
      | nil => rfl
      | cons stop rest =>
          rw [lines_cons_cons, List.zipIdx_cons, List.foldl_cons, divideLine_some,
            List.getLast?_cons_cons, ih, divided_cons_cons, Array.toList_appendList,
            List.append_assoc]

/-- While nothing has been put out, the points in front are still those of the stroke. -/
theorem foldl_divideLine_none (front rest : Path α) :
    (((lines rest).zipIdx front.length).foldl (divideLine limit (front ++ rest)) none).map
        (fun points => points.toList ++ rest.getLast?.toList) =
      if (lines rest).any (fun line => isLong limit line.1 line.2) then
        some (front ++ divided limit rest)
      else none := by
  -- a line that is not long leaves its start to the front, whose length is the line's number
  induction rest generalizing front with
  | nil => rfl
  | cons start rest ih =>
      cases rest with
      | nil => rfl
      | cons stop rest =>
          rw [lines_cons_cons, List.zipIdx_cons, List.foldl_cons, List.getLast?_cons_cons,
            List.any_cons]
          by_cases long : isLong limit start stop
          · rw [divideLine_none_of_long long, foldl_divideLine_some, long, Bool.true_or,
              if_pos rfl, divided_cons_cons, List.append_assoc]
          · have moved := ih (front ++ [start])
            rw [List.length_append, List.length_singleton, List.append_assoc,
              List.singleton_append, List.append_assoc, List.singleton_append] at moved
            rw [divideLine_none_of_not_long long, moved, Bool.eq_false_of_not_eq_true long,
              Bool.false_or, divided, inserted, if_neg long, List.nil_append]

/-- The run divides a stroke that has a long line, if the limit is positive. -/
theorem segmentize?_eq (limit : α) (path : Path α) :
    segmentize? limit path =
      if Scalar.ofNat 0 < limit ∧ (lines path).any (fun line => isLong limit line.1 line.2) then
        some (divided limit path)
      else none := by
  have run := @foldl_divideLine_none _ _ limit [] path
  rw [List.length_nil, List.nil_append, List.nil_append] at run
  rw [segmentize?, run]
  by_cases few : path.length < 2
  · rw [if_pos (.inl few), lines_eq_nil few, if_neg (by simp)]
  · by_cases positive : Scalar.ofNat 0 < limit
    · rw [if_neg (not_or.mpr ⟨few, not_not.mpr positive⟩)]
      exact if_congr (iff_and_self.mpr fun _ => positive) rfl rfl
    · rw [if_pos (.inr positive), if_neg fun both => positive both.1]

/-- A stroke is left alone just when it has no line, or the limit is not positive, or no line is
long. -/
theorem segmentize?_eq_none_iff {path : Path α} :
    segmentize? limit path = none ↔
      path.length < 2 ∨ ¬ Scalar.ofNat 0 < limit ∨
        ∀ line ∈ lines path, ¬ limit * limit < line.1.distanceSquared line.2 := by
  simp only [segmentize?_eq, isLong, List.any_eq_true, decide_eq_true_eq]
  constructor
  · intro alone
    split_ifs at alone with known
    by_cases positive : Scalar.ofNat 0 < limit
    · exact .inr (.inr fun line inside long => known ⟨positive, line, inside, long⟩)
    · exact .inr (.inl positive)
  · intro reason
    rw [if_neg]
    rintro ⟨positive, line, inside, long⟩
    rcases reason with few | negative | short
    · rw [lines_eq_nil few] at inside
      exact List.not_mem_nil inside
    · exact negative positive
    · exact short line inside long

/-- A stroke that is not left alone is divided, and the limit is positive. -/
theorem of_segmentize?_eq_some {path result : Path α}
    (known : segmentize? limit path = some result) :
    Scalar.ofNat 0 < limit ∧ divided limit path = result := by
  rw [segmentize?_eq] at known
  split_ifs at known with condition
  exact ⟨condition.1, Option.some.inj known⟩

/-- What is left of a stroke when its long lines are to be divided. -/
def segmentized (limit : α) (path : Path α) : Path α :=
  (segmentize? limit path).getD path

/-- Strokes are treated one by one. -/
theorem segmentizeAll_fst (limit : α) (paths : List (Path α)) :
    (segmentizeAll limit paths).1 = paths.map (segmentized limit) := by
  rw [segmentizeAll, List.map_map]
  rfl

/-- The strokes that are divided are counted. -/
theorem segmentizeAll_snd (limit : α) (paths : List (Path α)) :
    (segmentizeAll limit paths).2 = paths.countP fun path => (segmentize? limit path).isSome := by
  rw [segmentizeAll, List.countP_map]
  rfl

end Places

end LaserCut.Path
