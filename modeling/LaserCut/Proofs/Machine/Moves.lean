/-
# The moves of a program

What a program draws can be said without a reader.  Every line has words, the
last word with a letter counts, and what lines set stays in force until another
one sets it.  A line that names an axis is a move, made in the modes that its
own words leave in force.  The strokes of the program are its longest runs of
feeds: lines that do not move stand between two feeds without parting them, and
a seek ends the run.

The reader is shown to draw exactly these strokes.  Its invariant is that the
strokes it has ended, the stroke it is in the middle of and the moves still to
come make up the drawing.
-/

import Mathlib
import LaserCut.Machine.Reader
import LaserCut.Proofs.Machine.Running

namespace LaserCut.Machine

open Decimal Reader

/-- The kind of motion that a word sets, if it sets one. -/
def Word.motion? (word : Word) : Option Motion :=
  if word.letter = 'G' then
    if whole? word.value = some 0 then some .seek
    else if whole? word.value = some 1 then some .feed
    else none
  else none

/-- Whether coordinates count from the corner of the bed after a word, if it says
so. -/
def Word.absolute? (word : Word) : Option Bool :=
  if word.letter = 'G' then
    if whole? word.value = some 90 then some true
    else if whole? word.value = some 91 then some false
    else none
  else none

/-- What is in force at a line of a program. -/
structure Modes where
  motion : Motion
  absolute : Bool
  feedrate : Option Float
  power : Option Float
  deriving DecidableEq

namespace Modes

/-- What is in force before the first line. -/
def start : Modes :=
  ⟨.seek, true, none, none⟩

/-- What is in force after the words of a line.  The last word of its kind
counts, and a feedrate counts only where the motion is a feed by then. -/
def after (modes : Modes) (words : List Word) : Modes :=
  let motion := (words.filterMap Word.motion?).getLast?.getD modes.motion
  { motion
    absolute := (words.filterMap Word.absolute?).getLast?.getD modes.absolute
    feedrate :=
      if motion = .feed then (lastValue? 'F' words).or modes.feedrate else modes.feedrate
    power := (lastValue? 'S' words).or modes.power }

/-- Where the words of a line lead from a position, if they name an axis. -/
def target? (modes : Modes) (position : Point Float) (words : List Word) :
    Option (Point Float) :=
  match lastValue? 'X' words, lastValue? 'Y' words with
  | none, none => none
  | x, y =>
      if modes.absolute then some ⟨x.getD position.x, y.getD position.y⟩
      else some ⟨position.x + x.getD 0.0, position.y + y.getD 0.0⟩

end Modes

/-- A move of the head, with what is in force while it is made. -/
structure Move where
  modes : Modes
  start : Point Float
  target : Point Float
  deriving DecidableEq

namespace Move

/-- Whether a move is a seek. -/
def isSeek (move : Move) : Bool :=
  move.modes.motion = .seek

/-- Whether a move is a feed. -/
def isFeed (move : Move) : Bool :=
  !move.isSeek

end Move

/-- The moves of lines whose words are given, from what is in force and the
position before them. -/
def movesFrom (modes : Modes) (position : Point Float) : List (List Word) → List Move
  | [] => []
  | words :: rest =>
      let modes := modes.after words
      match modes.target? position words with
      | some target => ⟨modes, position, target⟩ :: movesFrom modes target rest
      | none => movesFrom modes position rest

/-- The words of the lines that do not belong to a raster. -/
def wordLines (lines : List (List Char)) : List (List Word) :=
  (lines.filter fun line => !isRasterLine line).filterMap fun line =>
    (wordsOf (removeComments line)).toOption

/-- The moves of a program. -/
def movesOf (lines : List (List Char)) : List Move :=
  movesFrom .start .origin (wordLines lines)

/-- The longest runs of feeds: what stands between the seeks. -/
def feedRuns (moves : List Move) : List (List Move) :=
  (moves.splitOnP Move.isSeek).filter fun run => !run.isEmpty

/-- The stroke of a run: the position before it and the targets of its moves. -/
def strokeOf : List Move → Path Float
  | [] => []
  | first :: rest => first.start :: (first :: rest).map Move.target

/-- The strokes of moves that go on with a stroke.  No points mean no stroke. -/
def strokesFrom (current : Path Float) : List Move → List (Path Float)
  | [] => if current = [] then [] else [current]
  | move :: rest =>
      if move.isSeek then (if current = [] then [] else [current]) ++ strokesFrom [] rest
      else
        strokesFrom ((if current = [] then [move.start] else current) ++ [move.target]) rest

/-- A stroke that was begun goes on with the first of the runs, and where none
was begun each run is a stroke of its own. -/
theorem strokesFrom_splitOnP (moves : List Move) :
    ∃ run runs, moves.splitOnP Move.isSeek = run :: runs ∧
      (∀ current, current ≠ [] →
        strokesFrom current moves =
          (current ++ run.map Move.target) ::
            (runs.filter fun run => !run.isEmpty).map strokeOf) ∧
      strokesFrom [] moves =
        ((run :: runs).filter fun run => !run.isEmpty).map strokeOf := by
  induction moves with
  | nil =>
      refine ⟨[], [], rfl, fun current begun => ?_, rfl⟩
      simp [strokesFrom, begun]
  | cons move rest ih =>
      obtain ⟨run, runs, split, goesOn, begins⟩ := ih
      by_cases seek : move.isSeek = true
      · refine ⟨[], run :: runs, by
        simp [List.splitOnP_cons_eq_if_modifyHead, split, seek], fun current begun => ?_, ?_⟩
        · simp [strokesFrom, seek, begun, begins]
        · simp [strokesFrom, seek, begins]
      · refine ⟨move :: run, runs, by
        simp [List.splitOnP_cons_eq_if_modifyHead, split, seek], fun current begun => ?_, ?_⟩
        · simp [strokesFrom, seek, begun, goesOn (current ++ [move.target]) (by simp)]
        · simp [strokesFrom, seek, strokeOf, goesOn [move.start, move.target] (by simp)]

/-- Where no stroke was begun, the strokes of moves are those of their runs. -/
theorem strokesFrom_nil (moves : List Move) :
    strokesFrom [] moves = (feedRuns moves).map strokeOf := by
  obtain ⟨run, runs, split, -, begins⟩ := strokesFrom_splitOnP moves
  rw [begins, feedRuns, split]

/-- The runs together are the feeds. -/
theorem flatten_feedRuns (moves : List Move) :
    (feedRuns moves).flatten = moves.filter Move.isFeed := by
  rw [feedRuns, List.flatten_filter_not_isEmpty]
  induction moves with
  | nil => rfl
  | cons move rest ih =>
      by_cases seek : move.isSeek = true
      · simp [List.splitOnP_cons_eq_if_modifyHead, seek, Move.isFeed, ← ih]
      · obtain ⟨run, runs, split⟩ := List.exists_cons_of_ne_nil (List.splitOnP_ne_nil Move.isSeek rest)
        rw [split] at ih
        simp only [List.splitOnP_cons_eq_if_modifyHead, seek, Bool.false_eq_true, if_false, split,
          List.modifyHead_cons, List.flatten_cons, List.cons_append]
        simp [Move.isFeed, seek, ← ih]

/-- A stroke has a point more than its run has moves. -/
theorem length_strokeOf {run : List Move} (nonempty : run ≠ []) :
    (strokeOf run).length = run.length + 1 := by
  cases run with
  | nil => exact absurd rfl nonempty
  | cons first rest => simp [strokeOf]

/-- No run is empty. -/
theorem ne_nil_of_mem_feedRuns {moves run : List Move} (inside : run ∈ feedRuns moves) :
    run ≠ [] := by
  simpa using (List.mem_filter.mp inside).2

/-- The strokes of a program have as many points as there are feeds, and one
more for each of them. -/
theorem sum_length_strokes (moves : List Move) :
    (((feedRuns moves).map strokeOf).map List.length).sum =
      (moves.filter Move.isFeed).length + (feedRuns moves).length := by
  have each : ((feedRuns moves).map strokeOf).map List.length =
      (feedRuns moves).map fun run => run.length + 1 := by
    rw [List.map_map]
    exact List.map_congr_left fun run inside => length_strokeOf (ne_nil_of_mem_feedRuns inside)
  rw [each, ← flatten_feedRuns, List.length_flatten, List.sum_map_add]
  simp

namespace Reader

/-- What is in force for the next line. -/
def modes (reader : Reader) : Modes :=
  ⟨reader.motion, reader.absolute, reader.feedrate, reader.power⟩

/-- A reader for which something else is in force. -/
def withModes (reader : Reader) (modes : Modes) : Reader :=
  { reader with
    motion := modes.motion
    absolute := modes.absolute
    feedrate := modes.feedrate
    power := modes.power }

/-- What a word sets. -/
theorem setMode_eq (reader : Reader) (word : Word) :
    reader.setMode word =
      { reader with
        motion := word.motion?.getD reader.motion
        absolute := word.absolute?.getD reader.absolute
        power := if word.letter = 'S' then some word.value else reader.power } := by
  unfold setMode Word.motion? Word.absolute?
  by_cases power : word.letter = 'S'
  · simp [power]
  · by_cases code : word.letter = 'G'
    · simp only [if_neg power, if_pos code]
      split <;> simp_all
    · simp [power, code]

/-- What the words of a line set: the last one of its kind counts. -/
theorem foldl_setMode (words : List Word) (reader : Reader) :
    words.foldl setMode reader =
      { reader with
        motion := (words.filterMap Word.motion?).getLast?.getD reader.motion
        absolute := (words.filterMap Word.absolute?).getLast?.getD reader.absolute
        power := (lastValue? 'S' words).or reader.power } := by
  induction words using List.reverseRecOn with
  | nil => rfl
  | append_singleton words word ih =>
      rw [List.foldl_append, List.foldl_cons, List.foldl_nil, ih, setMode_eq]
      have last {α : Type} (set? : Word → Option α) (before : α) :
          (set? word).getD ((words.filterMap set?).getLast?.getD before) =
            ((words ++ [word]).filterMap set?).getLast?.getD before := by
        cases known : set? word <;> simp [known]
      have power : (if word.letter = 'S' then some word.value
          else (lastValue? 'S' words).or reader.power) =
            (lastValue? 'S' (words ++ [word])).or reader.power := by
        by_cases letter : word.letter = 'S' <;> simp [lastValue?, letter]
      simp only [last, power]

/-- The words of a line set the modes, and if they name an axis the head moves in
these. -/
theorem obey_eq (reader : Reader) (words : List Word) :
    reader.obey words =
      match (reader.modes.after words).target? reader.position words with
      | some target => (reader.withModes (reader.modes.after words)).moveTo target
      | none => reader.withModes (reader.modes.after words) := by
  have reached : (words.foldl setMode reader).setRate (lastValue? 'F' words) =
      reader.withModes (reader.modes.after words) := by
    rw [foldl_setMode, setRate, withModes, Modes.after, modes]
    generalize (words.filterMap Word.motion?).getLast?.getD reader.motion = motion
    cases lastValue? 'F' words <;> cases motion <;> simp
  unfold obey
  dsimp only
  rw [reached, Modes.target?]
  cases x : lastValue? 'X' words with
  | none =>
      cases y : lastValue? 'Y' words with
      | none => simp
      | some v => by_cases corner : (reader.modes.after words).absolute <;>
          simp [target, withModes, corner]
  | some u => by_cases corner : (reader.modes.after words).absolute <;>
      simp [target, withModes, corner]

/-- The drawing of a reader once it has made further moves. -/
def drawingWith (reader : Reader) (moves : List Move) : Drawing :=
  let feed? := (moves.filter Move.isFeed).getLast?
  ⟨reader.strokes.toList ++ strokesFrom reader.current.toList moves,
    (feed?.map fun move => move.modes.feedrate).getD reader.drawnFeedrate,
    (feed?.map fun move => move.modes.power).getD reader.drawnPower⟩

/-- Without further moves the drawing is that of the reader. -/
theorem drawingWith_nil (reader : Reader) : reader.drawingWith [] = reader.drawing := by
  rw [drawing_eq, drawingWith, strokesFrom]
  by_cases ended : reader.current = #[] <;> simp [ended]

/-- A move that is made belongs to the drawing as a move still to come did. -/
theorem drawingWith_moveTo (reader : Reader) (target : Point Float) (moves : List Move) :
    (reader.moveTo target).drawingWith moves =
      reader.drawingWith (⟨reader.modes, reader.position, target⟩ :: moves) := by
  cases motion : reader.motion with
  | seek =>
      by_cases ended : reader.current = #[] <;>
        simp [drawingWith, moveTo, motion, endStroke, strokesFrom, Move.isSeek, Move.isFeed, modes,
          ended]
  | feed =>
      have rate {α : Type} (rest : List Move) (field : Move → α) (move : Move) (before : α) :
          (rest.getLast?.map field).getD (field move) =
            ((move :: rest).getLast?.map field).getD before := by
        rw [List.getLast?_cons]
        cases rest.getLast? <;> rfl
      by_cases ended : reader.current = #[] <;>
        simp [drawingWith, moveTo, motion, strokesFrom, Move.isSeek, Move.isFeed, modes, ended, ← rate]

/-- A move changes the position and leaves in force what was. -/
theorem modes_moveTo (reader : Reader) (target : Point Float) :
    (reader.moveTo target).modes = reader.modes := by
  cases motion : reader.motion with
  | seek => by_cases ended : reader.current = #[] <;> simp [moveTo, motion, endStroke, modes, ended]
  | feed => simp [moveTo, motion, modes]

/-- After a move the head is at its target. -/
theorem position_moveTo (reader : Reader) (target : Point Float) :
    (reader.moveTo target).position = target := by
  cases motion : reader.motion <;> simp [moveTo, motion]

/-- What is drawn with the moves of lines stays the same when the first of the
lines is obeyed. -/
theorem drawingWith_obey (reader : Reader) (words : List Word) (rest : List (List Word)) :
    (reader.obey words).drawingWith
        (movesFrom (reader.obey words).modes (reader.obey words).position rest) =
      reader.drawingWith (movesFrom reader.modes reader.position (words :: rest)) := by
  rw [obey_eq, movesFrom]
  cases leads : (reader.modes.after words).target? reader.position words with
  | none => simp [drawingWith, withModes, modes]
  | some target =>
      simp only [modes_moveTo, position_moveTo, drawingWith_moveTo]
      rfl

/-- A line without words changes nothing. -/
theorem obey_nil (reader : Reader) : reader.obey [] = reader := by
  simp [obey, setRate, lastValue?]

/-- The drawing of lines that are all read: the moves of the lines follow what the
reader has drawn before. -/
theorem drawing_of_readLines {lines : List (List Char)} :
    ∀ {reader final : Reader}, reader.readLines lines = .ok final →
      final.drawing =
        reader.drawingWith (movesFrom reader.modes reader.position (wordLines lines)) := by
  induction lines with
  | nil =>
      intro reader final accepted
      rw [← Except.ok.inj accepted]
      exact (drawingWith_nil reader).symm
  | cons line rest ih =>
      intro reader final accepted
      rw [readLines, read] at accepted
      cases known : lineWords line with
      | error word =>
          rw [known] at accepted
          cases accepted
      | ok words =>
          rw [known] at accepted
          have later := ih accepted
          by_cases raster : isRasterLine line = true
          · -- a raster line is read as no words, which leave everything as it is
            obtain rfl : words = [] := by
              rw [lineWords, if_pos raster] at known
              exact (Except.ok.inj known).symm
            have skipped : wordLines (line :: rest) = wordLines rest := by
              simp [wordLines, raster]
            rw [skipped, later, obey_nil]
            rfl
          · have first : wordLines (line :: rest) = words :: wordLines rest := by
              rw [lineWords, if_neg raster] at known
              simp [wordLines, raster, known, Except.toOption]
            rw [first, later, drawingWith_obey]
            rfl

end Reader

/-- What a reader has drawn after lines that it accepts: one stroke for each run
of feeds, so that every stroke has a line and there is one point more for each
stroke than there are feeds, and the rates in force at the last feed. -/
theorem drawing_eq_moves {lines : List (List Char)} {reader : Reader}
    (accepted : Reader.start.readLines lines = .ok reader) :
    let feeds := (movesOf lines).filter Move.isFeed
    reader.drawing.paths = (feedRuns (movesOf lines)).map strokeOf ∧
      (∀ path ∈ reader.drawing.paths, 2 ≤ path.length) ∧
      (reader.drawing.paths.map List.length).sum =
        feeds.length + reader.drawing.paths.length ∧
      reader.drawing.feedrate = feeds.getLast?.bind (fun move => move.modes.feedrate) ∧
      reader.drawing.power = feeds.getLast?.bind (fun move => move.modes.power) := by
  intro feeds
  have drawn : reader.drawing = Reader.start.drawingWith (movesOf lines) :=
    drawing_of_readLines accepted
  have strokes : reader.drawing.paths = (feedRuns (movesOf lines)).map strokeOf := by
    rw [drawn, ← strokesFrom_nil]
    rfl
  have last {α : Type} (rate : Move → Option α) :
      (feeds.getLast?.map rate).getD none = feeds.getLast?.bind rate := by
    cases feeds.getLast? <;> rfl
  refine ⟨strokes, fun path inside => ?_, ?_, ?_, ?_⟩
  · rw [strokes] at inside
    obtain ⟨run, among, rfl⟩ := List.mem_map.mp inside
    have nonempty := ne_nil_of_mem_feedRuns among
    rw [length_strokeOf nonempty]
    have := List.length_pos_of_ne_nil nonempty
    omega
  · rw [strokes, sum_length_strokes, List.length_map]
  · rw [drawn, ← last]
    rfl
  · rw [drawn, ← last]
    rfl

/-- A stroke that goes on after a line of rates and a raster line, and one that
a seek parts from it.  The seek of the last line draws nothing, and its feedrate
is left alone. -/
def sampleLines : List (List Char) :=
  ["G0X1Y2", "G91 (relative)", "G1X3F600S20", "S30", "G8 D001", "y4", "G0X1", "G1Y-1",
    "G0X9F100"].map String.toList

/-- The sample draws two strokes. -/
theorem drawing_sample :
    ∃ reader, Reader.start.readLines sampleLines = .ok reader ∧
      reader.drawing.paths = [[⟨1, 2⟩, ⟨4, 2⟩, ⟨4, 6⟩], [⟨5, 6⟩, ⟨5, 5⟩]] ∧
      reader.drawing.feedrate = some 600 ∧ reader.drawing.power = some 30 := by
  obtain ⟨reader, accepted⟩ : ∃ reader, Reader.start.readLines sampleLines = .ok reader := by
    cases read : Reader.start.readLines sampleLines with
    | ok reader => exact ⟨reader, rfl⟩
    | error fault =>
        have all : (Reader.start.readLines sampleLines).toBool = true := by decide +kernel
        rw [read] at all
        cases all
  obtain ⟨paths, -, -, feedrate, power⟩ := drawing_eq_moves accepted
  refine ⟨reader, accepted, ?_, ?_, ?_⟩
  · rw [paths]
    decide +kernel
  · rw [feedrate]
    decide +kernel
  · rw [power]
    decide +kernel

end LaserCut.Machine
