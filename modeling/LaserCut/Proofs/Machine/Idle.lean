/-
# Lines without effect

A line that is refused, a line of a raster and a line with nothing but comments
leave a reader as it was, but for the number of lines that it has seen.  A refused
line has no part that was obeyed, because all of its words are read before the
first one counts.

So the other lines on their own give the same drawing and the same answers.  Two
readers that differ only in the number of lines answer every line alike and go on
to differ only in that number; this carries the result over a whole run.
-/

import Mathlib
import LaserCut.Proofs.Attempt
import LaserCut.Proofs.Machine.Moves

namespace LaserCut.Machine.Reader

/-- A reader that has seen another number of lines. -/
def withLine (reader : Reader) (line : Nat) : Reader :=
  { reader with line := line }

@[simp] theorem withLine_withLine (reader : Reader) (line other : Nat) :
    (reader.withLine line).withLine other = reader.withLine other :=
  rfl

@[simp] theorem withLine_line (reader : Reader) : reader.withLine reader.line = reader :=
  rfl

@[simp] theorem line_withLine (reader : Reader) (line : Nat) :
    (reader.withLine line).line = line :=
  rfl

/-- Moving does not look at the number of lines. -/
theorem moveTo_withLine (reader : Reader) (line : Nat) (target : Point Float) :
    (reader.withLine line).moveTo target = (reader.moveTo target).withLine line := by
  cases motion : reader.motion with
  | seek =>
      by_cases ended : reader.current = #[] <;> simp [moveTo, endStroke, withLine, motion, ended]
  | feed => simp [moveTo, withLine, motion]

/-- The words of a line are obeyed without a look at the number of lines. -/
theorem obey_withLine (reader : Reader) (line : Nat) (words : List Word) :
    (reader.withLine line).obey words = (reader.obey words).withLine line := by
  have same : ((reader.withLine line).modes.after words).target? (reader.withLine line).position
      words = (reader.modes.after words).target? reader.position words := rfl
  rw [obey_eq, obey_eq, same]
  cases (reader.modes.after words).target? reader.position words with
  | none => rfl
  | some target => exact moveTo_withLine (reader.withModes (reader.modes.after words)) line target

/-- The drawing does not show the number of lines. -/
@[simp] theorem drawing_withLine (reader : Reader) (line : Nat) :
    (reader.withLine line).drawing = reader.drawing := by
  rw [drawing_eq, drawing_eq]
  rfl

/-- What a reader makes of a line: it obeys the words, or it names the line and the
word that it refuses. -/
theorem read_eq (reader : Reader) (line : List Char) :
    reader.read line =
      match lineWords line with
      | .ok words => ((reader.obey words).withLine (reader.line + 1), .ok ())
      | .error word => (reader.withLine (reader.line + 1), .error ⟨reader.line + 1, .ofList word⟩) := by
  rw [read]
  cases lineWords line with
  | ok words =>
      have obeyed := obey_withLine reader (reader.line + 1) words
      exact congrArg (fun next => (next, Except.ok ())) obeyed
  | error word => rfl

/-- Every line counts. -/
theorem line_read (reader : Reader) (line : List Char) :
    (reader.read line).1.line = reader.line + 1 := by
  rw [read_eq]
  cases lineWords line <;> rfl

/-- Readers that differ in the number of lines go on to differ in that alone. -/
theorem read_withLine_fst (reader : Reader) (count : Nat) (line : List Char) :
    ((reader.withLine count).read line).1 = (reader.read line).1.withLine (count + 1) := by
  rw [read_eq, read_eq]
  cases lineWords line with
  | ok words => simp [obey_withLine]
  | error word => rfl

/-- Readers that differ in the number of lines refuse the same words. -/
theorem read_withLine_snd (reader : Reader) (count : Nat) (line : List Char) :
    ((reader.withLine count).read line).2.mapError InvalidWord.word =
      (reader.read line).2.mapError InvalidWord.word := by
  rw [read_eq, read_eq]
  cases lineWords line <;> rfl

/-- The reader after lines of which it may have refused some. -/
def feed (reader : Reader) (lines : List (List Char)) : Reader :=
  lines.foldl (fun reader line => (reader.read line).1) reader

/-- Every line with the answer to it, refused or not. -/
def transcript (reader : Reader) : List (List Char) → List (List Char × Except InvalidWord Unit)
  | [] => []
  | line :: rest => (line, (reader.read line).2) :: (reader.read line).1.transcript rest

/-- Whether a line with the answer to it has an effect: it is not refused, it belongs
to no raster, and there is more in it than comments. -/
def hasEffect (entry : List Char × Except InvalidWord Unit) : Bool :=
  entry.2.isOk && !isRasterLine entry.1 && !(removeComments entry.1).isEmpty

/-- The lines that have an effect on a reader, in their order. -/
def effective (reader : Reader) (lines : List (List Char)) : List (List Char) :=
  ((reader.transcript lines).filter hasEffect).map Prod.fst

/-- A line with the answer to it, without the number of the line in a refusal. -/
def unnumbered (entry : List Char × Except InvalidWord Unit) :
    List Char × Except String Unit :=
  (entry.1, entry.2.mapError InvalidWord.word)

/-- A line without effect is counted, and nothing else comes of it. -/
theorem read_of_idle {reader : Reader} {line : List Char}
    (idle : hasEffect (line, (reader.read line).2) = false) :
    (reader.read line).1 = reader.withLine (reader.line + 1) := by
  rw [read_eq] at idle ⊢
  cases known : lineWords line with
  | error word => rfl
  | ok words =>
      have wordless : words = [] := by
        rw [known] at idle
        rw [lineWords] at known
        by_cases raster : isRasterLine line = true
        · rw [if_pos raster] at known
          exact (Except.ok.inj known).symm
        · have empty : removeComments line = [] := by
            simpa [hasEffect, Except.isOk, Except.toBool, raster] using idle
          rw [if_neg raster, empty, wordsOf] at known
          exact (Except.ok.inj known).symm
      simp [wordless, obey_nil]

/-- After all lines a reader is as it is after those with an effect, but for the
number of lines; and these are answered as they were among the others. -/
theorem feed_eq_feed_effective (lines : List (List Char)) :
    ∀ (reader : Reader) (count : Nat),
      reader.feed lines =
          ((reader.withLine count).feed (reader.effective lines)).withLine
            (reader.line + lines.length) ∧
        ((reader.withLine count).transcript (reader.effective lines)).map unnumbered =
          ((reader.transcript lines).filter hasEffect).map unnumbered := by
  induction lines with
  | nil => exact fun reader count => ⟨rfl, rfl⟩
  | cons line rest ih =>
      intro reader count
      have length : (reader.read line).1.line + rest.length = reader.line + (line :: rest).length := by
        rw [line_read, List.length_cons]
        omega
      have next : reader.feed (line :: rest) = (reader.read line).1.feed rest := rfl
      by_cases counts : hasEffect (line, (reader.read line).2) = true
      · have first : reader.effective (line :: rest) =
            line :: (reader.read line).1.effective rest := by
          simp [effective, transcript, counts]
        obtain ⟨same, answers⟩ := ih (reader.read line).1 (count + 1)
        rw [length] at same
        rw [first, next, same]
        refine ⟨?_, ?_⟩
        · rw [feed, feed, List.foldl_cons, read_withLine_fst]
        · rw [transcript, transcript, List.filter_cons_of_pos counts, List.map_cons, List.map_cons,
            ← answers, read_withLine_fst]
          simp only [unnumbered, read_withLine_snd]
      · have idle := read_of_idle (Bool.eq_false_iff.mpr counts)
        have first : reader.effective (line :: rest) = (reader.read line).1.effective rest := by
          simp [effective, transcript, counts]
        obtain ⟨same, answers⟩ := ih (reader.read line).1 count
        rw [length] at same
        rw [first, next, same, transcript, List.filter_cons_of_neg counts, ← answers, idle,
          withLine_withLine]
        exact ⟨rfl, rfl⟩

/-- A reader that goes on after refused lines has, after any number of lines, the
drawing that it would have without the lines that were refused, those of rasters and
those with nothing but comments.  The other lines are answered as they would be
without them, and so is whatever line comes next, but for the number of the line. -/
theorem drawing_feed_effective (reader : Reader) (lines : List (List Char)) :
    (reader.feed lines).drawing = (reader.feed (reader.effective lines)).drawing ∧
      (reader.transcript (reader.effective lines)).map unnumbered =
        ((reader.transcript lines).filter hasEffect).map unnumbered ∧
      ∀ next, ((reader.feed lines).read next).2.mapError InvalidWord.word =
        ((reader.feed (reader.effective lines)).read next).2.mapError InvalidWord.word := by
  obtain ⟨same, answers⟩ := feed_eq_feed_effective lines reader reader.line
  rw [withLine_line] at same answers
  rw [same]
  exact ⟨drawing_withLine _ _, answers, read_withLine_snd _ _⟩

example :
    start.effective [['G', '1', 'X', '1'], ['S', '9', ' ', 'G', '0', ' ', 'X', '?'],
        ['G', '8', 'D', ';'], [';', 'e', 'n', 'd'], ['Y', '2']] =
      [['G', '1', 'X', '1'], ['Y', '2']] := by
  decide +kernel

end LaserCut.Machine.Reader
