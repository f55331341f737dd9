/-
# Running a program

A reader that counts coordinates from the corner of the bed obeys one
instruction at a time.  What it shows of a program is the drawing so far, and
only feeds add to it: whatever else a line does, a stroke that was begun stays
the last one of the drawing until the next one is begun.
-/

import Mathlib
import LaserCut.Machine.Reader
import LaserCut.Proofs.Machine.Lines

namespace LaserCut.Machine

open Decimal

namespace Reader

/-- What an instruction does to a reader. -/
def perform (places : Nat) (reader : Reader) (instruction : Instruction) : Reader :=
  let counted := { reader with line := reader.line + 1 }
  match instruction with
  | .absolute => { counted with absolute := true }
  | .airOn => counted
  | .airOff => counted
  | .seekRate _ => { counted with motion := .seek }
  | .engraveRate rate => { counted with motion := .feed, feedrate := some (Float.ofNat rate) }
  | .feedRate rate => { counted with motion := .feed, feedrate := some rate }
  | .power level => { counted with power := some (Float.ofNat level) }
  | .seek target => { counted with motion := .seek }.moveTo (target.reread places)
  | .feed target => { counted with motion := .feed }.moveTo (target.reread places)
  | .frame corner => { counted with motion := .seek }.moveTo (corner.reread framePlaces)
  | .home _ => { counted with motion := .seek }.moveTo ⟨Float.ofNat 0, Float.ofNat 0⟩
  | .dotPitch _ => counted
  | .runway _ => counted
  | .nextRow => counted
  | .samples _ => counted

/-- A reader after a whole program. -/
def run (places : Nat) (reader : Reader) (program : List Instruction) : Reader :=
  program.foldl (perform places) reader

/-- The codes of the instructions are whole numbers. -/
theorem whole?_codes :
    whole? (Float.ofNat 0) = some 0 ∧ whole? (Float.ofNat 1) = some 1 ∧
      whole? (Float.ofNat 90) = some 90 := by
  decide +kernel

/-- The words of an instruction do what it does. -/
theorem obey_words (places : Nat) {reader : Reader} (absolute : reader.absolute = true)
    (instruction : Instruction) :
    { reader with line := reader.line + 1 }.obey (instruction.words places) =
      reader.perform places instruction := by
  obtain ⟨zero, one, ninety⟩ := whole?_codes
  cases instruction <;>
    simp [obey, Instruction.words, Instruction.axes, perform, setMode, setRate, lastValue?, target,
      zero, one, ninety, absolute]

@[simp] theorem absolute_moveTo (reader : Reader) (point : Point Float) :
    (reader.moveTo point).absolute = reader.absolute := by
  unfold moveTo endStroke
  split <;> (try split_ifs) <;> rfl

/-- No instruction makes coordinates count from the position of the head. -/
theorem absolute_perform (places : Nat) {reader : Reader} (absolute : reader.absolute = true)
    (instruction : Instruction) : (reader.perform places instruction).absolute = true := by
  cases instruction <;> simp [perform, absolute]

theorem run_append (places : Nat) (reader : Reader) (first second : List Instruction) :
    reader.run places (first ++ second) = (reader.run places first).run places second :=
  List.foldl_append

/-- The line of a readable instruction does what the instruction does. -/
theorem read_render (places : Nat) {reader : Reader} (absolute : reader.absolute = true)
    {instruction : Instruction} (readable : instruction.IsReadable) :
    reader.read (instruction.render places) = (reader.perform places instruction, .ok ()) := by
  rw [read, lineWords_render places readable]
  simp only [obey_words places absolute instruction]

/-- The lines of a readable program are all read, and each does what its
instruction does. -/
theorem readLines_render (places : Nat) {program : List Instruction} :
    ∀ {reader : Reader}, reader.absolute = true →
      (∀ instruction ∈ program, instruction.IsReadable) →
      reader.readLines (program.map (Instruction.render places)) =
        .ok (reader.run places program) := by
  induction program with
  | nil =>
      intro reader _ _
      rfl
  | cons instruction rest ih =>
      intro reader absolute readable
      obtain ⟨first, others⟩ := List.forall_mem_cons.mp readable
      rw [List.map_cons, readLines, read_render places absolute first]
      exact ih (absolute_perform places absolute instruction) others

@[simp] theorem line_moveTo (reader : Reader) (point : Point Float) :
    (reader.moveTo point).line = reader.line := by
  unfold moveTo endStroke
  split <;> (try split_ifs) <;> rfl

/-- Every instruction is a line. -/
theorem line_perform (places : Nat) (reader : Reader) (instruction : Instruction) :
    (reader.perform places instruction).line = reader.line + 1 := by
  cases instruction <;> simp [perform]

/-- A program is read up to the first line that is refused, and the fault names it. -/
theorem readLines_of_refused (places : Nat) {program : List Instruction} {line word : List Char}
    (refused : lineWords line = .error word) (rest : List (List Char)) :
    ∀ {reader : Reader}, reader.absolute = true →
      (∀ instruction ∈ program, instruction.IsReadable) →
      reader.readLines (program.map (Instruction.render places) ++ line :: rest) =
        .error ⟨reader.line + program.length + 1, String.ofList word⟩ := by
  induction program with
  | nil =>
      intro reader _ _
      rw [List.map_nil, List.nil_append, readLines, read, refused]
      rfl
  | cons instruction more ih =>
      intro reader absolute readable
      obtain ⟨first, others⟩ := List.forall_mem_cons.mp readable
      rw [List.map_cons, List.cons_append, readLines, read_render places absolute first]
      refine (ih (absolute_perform places absolute instruction) others).trans ?_
      rw [line_perform, List.length_cons, ← Nat.add_assoc, Nat.add_right_comm reader.line 1]

/-- The drawing of a reader: the strokes that have ended, the current one if
there is one, and the rates of the last feed. -/
theorem drawing_eq (reader : Reader) :
    reader.drawing =
      ⟨if reader.current.isEmpty then reader.strokes.toList
        else reader.strokes.toList ++ [reader.current.toList],
        reader.drawnFeedrate, reader.drawnPower⟩ := by
  unfold drawing endStroke
  split_ifs <;> simp

/-- The drawing with further strokes at the rates in force. -/
def drawn (reader : Reader) (strokes : List (Path Float)) : Drawing :=
  if strokes = [] then reader.drawing
  else ⟨reader.drawing.paths ++ strokes, reader.feedrate, reader.power⟩

/-- What moves leave behind: strokes that were drawn at the rates in force, and
these rates. -/
structure HasDrawn (before after : Reader) (strokes : List (Path Float)) : Prop where
  drawing : after.drawing = before.drawn strokes
  feedrate : after.feedrate = before.feedrate
  power : after.power = before.power

/-- Strokes are drawn one after the other. -/
theorem HasDrawn.trans {first second third : Reader} {strokes more : List (Path Float)}
    (left : HasDrawn first second strokes) (right : HasDrawn second third more) :
    HasDrawn first third (strokes ++ more) where
  drawing := by
    rw [right.drawing]
    simp only [drawn, left.drawing, left.feedrate, left.power, List.append_eq_nil_iff]
    split_ifs <;> simp_all
  feedrate := right.feedrate.trans left.feedrate
  power := right.power.trans left.power

/-- A reader in the middle of a stroke that it draws at the rates in force. -/
structure IsDrawing (reader : Reader) (ended : Array (Path Float)) (stroke : Path Float)
    (rate level : Option Float) : Prop where
  strokes : reader.strokes = ended
  current : reader.current.toList = stroke
  nonempty : stroke ≠ []
  feedrate : reader.feedrate = rate
  power : reader.power = level
  drawnFeedrate : reader.drawnFeedrate = rate
  drawnPower : reader.drawnPower = level

namespace IsDrawing

variable {reader : Reader} {ended : Array (Path Float)} {stroke : Path Float}
  {rate level : Option Float}

/-- The stroke is the last one of the drawing. -/
theorem drawing (known : IsDrawing reader ended stroke rate level) :
    reader.drawing = ⟨ended.toList ++ [stroke], rate, level⟩ := by
  have started : reader.current.isEmpty = false := by
    rw [← Array.isEmpty_toList, known.current]
    simpa using known.nonempty
  simp [drawing_eq, started, known.strokes, known.current, known.drawnFeedrate, known.drawnPower]

/-- A feed extends the stroke. -/
theorem feed (known : IsDrawing reader ended stroke rate level) (places : Nat)
    (target : Point Float) :
    IsDrawing (reader.perform places (.feed target)) ended (stroke ++ [target.reread places])
      rate level := by
  have started : reader.current.isEmpty = false := by
    rw [← Array.isEmpty_toList, known.current]
    simpa using known.nonempty
  constructor <;>
    simp [perform, moveTo, started, known.strokes, known.current, known.feedrate, known.power]

/-- Feeds extend the stroke one after the other. -/
theorem feeds (places : Nat) (targets : List (Point Float)) :
    ∀ {reader : Reader} {stroke : Path Float}, IsDrawing reader ended stroke rate level →
      IsDrawing (reader.run places (targets.map .feed)) ended
        (stroke ++ targets.map (Point.reread places)) rate level := by
  induction targets with
  | nil =>
      intro reader stroke known
      rw [List.map_nil, List.map_nil, List.append_nil]
      exact known
  | cons target rest ih =>
      intro reader stroke known
      have extended := ih (known.feed places target)
      rwa [List.append_assoc] at extended

end IsDrawing

/-- A seek draws nothing. -/
theorem hasDrawn_seek (places : Nat) (reader : Reader) (target : Point Float) :
    HasDrawn reader (reader.perform places (.seek target)) [] := by
  by_cases ended : reader.current.isEmpty = true
  · constructor <;> simp [drawn, drawing_eq, perform, moveTo, endStroke, ended]
  · constructor <;> simp [drawn, drawing_eq, perform, moveTo, endStroke, ended]

/-- The first feed after a seek begins a stroke where the seek led. -/
theorem isDrawing_feed_seek (places : Nat) (reader : Reader) (start target : Point Float) :
    IsDrawing ((reader.perform places (.seek start)).perform places (.feed target))
      reader.endStroke.strokes [start.reread places, target.reread places]
      reader.feedrate reader.power := by
  by_cases ended : reader.current.isEmpty = true
  · constructor <;> simp [perform, moveTo, endStroke, ended]
  · constructor <;> simp [perform, moveTo, endStroke, ended]

/-- The moves of a stroke draw it when they have a line to draw. -/
theorem hasDrawn_stroke (places : Nat) (reader : Reader) (stroke : Path Float) :
    HasDrawn reader (reader.run places (strokeInstructions stroke))
      (if 2 ≤ stroke.length then [stroke.map (Point.reread places)] else []) := by
  match stroke with
  | [] => exact ⟨rfl, rfl, rfl⟩
  | [start] => exact hasDrawn_seek places reader start
  | start :: target :: rest =>
      have drawing := IsDrawing.feeds places rest (isDrawing_feed_seek places reader start target)
      refine ⟨?_, drawing.feedrate, drawing.power⟩
      rw [if_pos (by simp)]
      exact drawing.drawing

/-- The moves of several strokes draw those with a line to draw. -/
theorem hasDrawn_strokes (places : Nat) (strokes : List (Path Float)) :
    ∀ reader : Reader, HasDrawn reader (reader.run places (strokes.flatMap strokeInstructions))
      ((strokes.filter (2 ≤ ·.length)).map (List.map (Point.reread places))) := by
  induction strokes with
  | nil => exact fun reader => ⟨rfl, rfl, rfl⟩
  | cons stroke rest ih =>
      intro reader
      have drawn := (hasDrawn_stroke places reader stroke).trans (ih _)
      rw [List.flatMap_cons, run_append]
      by_cases line : 2 ≤ stroke.length
      · simpa [line] using drawn
      · simpa [line] using drawn

end Reader

end LaserCut.Machine
