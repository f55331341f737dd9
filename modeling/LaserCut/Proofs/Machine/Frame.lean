/-
# Programs that show the frame of a job

The frame of a job is its whole box, corner by corner.  A finite box is read without an
error and nothing is drawn.  An end at infinity is written as a word without digits, and
the reader refuses the first line that has one.
-/

import Mathlib
import LaserCut.Proofs.Job.Outline
import LaserCut.Proofs.Machine.ReadBack

namespace LaserCut.Machine

open Decimal

/-- The text of infinity. -/
def infinityText : List Char :=
  ['I', 'n', 'f', 'i', 'n', 'i', 't', 'y']

/-- Infinity has no digits. -/
theorem fixed_infinity (places : Nat) : fixed Scalar.infinity places = infinityText := by
  have parts : Binary.ofFloat (Scalar.infinity : Float) = .infinite false := by decide
  rw [fixed, parts]
  rfl

/-- The text of an end opens no comment. -/
theorem plain_fixed {value : Float} (ends : IsEnd value) (places : Nat) :
    ∀ c ∈ fixed value places, c ≠ ';' ∧ c ≠ '(' := by
  rcases ends with finite | rfl
  · intro c inside
    have numeral := isNumeral_fixed finite places c inside
    constructor <;> rintro rfl <;> exact absurd numeral (by decide)
  · rw [fixed_infinity]
    simp [infinityText]

section Corner

variable {corner : Point Float} (infinite : corner.x = Scalar.infinity) (places : Nat)

include infinite

/-- The line of a corner at infinity. -/
theorem render_frame :
    (Instruction.frame corner).render places =
      'G' :: (['0', '0'] ++ 'X' :: (infinityText ++ 'Y' :: fixed corner.y framePlaces)) := by
  rw [← fixed_infinity framePlaces, ← infinite]
  rfl

/-- A corner at infinity is refused at its first word. -/
theorem lineWords_frame (ends : IsEnd corner.y) :
    lineWords ((Instruction.frame corner).render places) = .error ['X'] := by
  have plain : ∀ c ∈ (Instruction.frame corner).render places, c ≠ ';' ∧ c ≠ '(' := by
    rw [render_frame infinite, ← fixed_infinity framePlaces]
    simp only [List.forall_mem_cons, List.forall_mem_append, List.not_mem_nil]
    exact ⟨by decide, ⟨by decide, by decide, nofun⟩, by decide, plain_fixed (.inr rfl) framePlaces,
      by decide, plain_fixed ends framePlaces⟩
  have other : isRasterLine ((Instruction.frame corner).render places) = false := by
    rw [render_frame infinite]
    exact isRasterLine_of_code (by simp [AllDigits]) (by simp) (by decide)
  have code : IsWritten ['G', '0', '0'] ⟨'G', Float.ofNat 0⟩ :=
    ⟨by simp [commandLetters], rfl, by simp [isNumeral], by decide⟩
  -- `X` goes on with an `I`, where a number cannot start
  have refused : wordsOf ('X' :: (infinityText ++ 'Y' :: fixed corner.y framePlaces)) =
      .error ['X'] :=
    wordsOf_letter (by simp [commandLetters]) (by simp [infinityText, isNumeral])
  have read := wordsOf_append code
    (show ∀ c ∈ ('X' :: (infinityText ++ 'Y' :: fixed corner.y framePlaces)).head?, _ by
      simp [isNumeral])
  rw [refused] at read
  rw [lineWords, other, removeComments_of_plain plain, render_frame infinite]
  exact read

/-- A program with a corner at infinity names infinity. -/
theorem infix_programText (before after : List Instruction) :
    'X' :: infinityText <:+: programText places (before ++ .frame corner :: after) := by
  refine ⟨programText places before ++ ['G', '0', '0'],
    'Y' :: fixed corner.y framePlaces ++ '\n' :: programText places after, ?_⟩
  simp only [programText, List.flatMap_append, List.flatMap_cons, render_frame infinite,
    List.append_assoc, List.cons_append, List.nil_append]

/-- A program is read up to its first corner at infinity. -/
theorem readProgram_of_infinite {before after : List Instruction} (ends : IsEnd corner.y)
    (sampled : ∀ instruction ∈ before ++ .frame corner :: after, instruction.IsSampled)
    (readable : ∀ instruction ∈ before, instruction.IsReadable) :
    readProgram (String.ofList (programText places (before ++ .frame corner :: after))) =
      .error ⟨before.length + 1, "X"⟩ := by
  have refused := Reader.readLines_of_refused places (lineWords_frame infinite places ends)
    (after.map (Instruction.render places)) (by rfl : Reader.start.absolute = true) readable
  have counted : Reader.start.line + before.length = before.length := Nat.zero_add _
  rw [readProgram, String.toList_ofList, lines_programText places sampled, List.map_append,
    List.map_cons, refused, counted]
  rfl

end Corner

/-- A program without samples and feeds that is readable as a whole draws nothing. -/
theorem readProgram_of_quiet {places : Nat} {program : List Instruction}
    (sampled : ∀ instruction ∈ program, instruction.IsSampled)
    (readable : ∀ instruction ∈ program, instruction.IsReadable)
    (quiet : ∀ instruction ∈ program, ∀ target, instruction ≠ .feed target) :
    readProgram (String.ofList (programText places program)) = .ok Reader.start.drawing := by
  have run := Reader.readLines_render places (by rfl : Reader.start.absolute = true) readable
  rw [readProgram, String.toList_ofList, lines_programText places sampled, run]
  exact congrArg Except.ok (Reader.drawing_run places program Reader.start quiet)

/-- A property of the moves of a frame and of the lines around them holds of all lines. -/
theorem forall_mem_frameInstructions {p : Instruction → Prop} (settings : Settings) {job : Job}
    (absolute : p .absolute) (seekRate : ∀ rate, p (.seekRate rate)) (home : ∀ rate, p (.home rate))
    (frame : ∀ corner ∈ job.wholeStats.box.outline, p (.frame corner)) :
    ∀ instruction ∈ frameInstructions settings job, p instruction := by
  simp only [frameInstructions, List.forall_mem_append, List.forall_mem_cons, List.forall_mem_map,
    List.not_mem_nil, false_implies, implies_true, and_true]
  exact ⟨⟨⟨absolute, seekRate _⟩, frame⟩, home _⟩

/-- A frame has no samples. -/
theorem isSampled_of_mem_frameInstructions (settings : Settings) (job : Job) :
    ∀ instruction ∈ frameInstructions settings job, instruction.IsSampled :=
  forall_mem_frameInstructions settings trivial (fun _ => trivial) (fun _ => trivial)
    fun _ _ => trivial

/-- The frame of a finite box is read and draws nothing. -/
theorem readProgram_of_isFinite (settings : Settings) {job : Job}
    (finite : job.wholeStats.box.IsFinite) :
    readProgram (encodeFrame settings job) = .ok Reader.start.drawing := by
  have corners : ∀ corner ∈ job.wholeStats.box.outline, corner.IsFinite := by
    obtain ⟨minX, minY, maxX, maxY⟩ := finite
    simp only [Box.outline, List.forall_mem_cons, List.not_mem_nil, false_implies, implies_true,
      and_true]
    exact ⟨⟨minX, minY⟩, ⟨maxX, minY⟩, ⟨maxX, maxY⟩, ⟨minX, maxY⟩, minX, minY⟩
  exact readProgram_of_quiet (isSampled_of_mem_frameInstructions settings job)
    (forall_mem_frameInstructions settings trivial (fun _ => trivial) (fun _ => trivial) corners)
    (forall_mem_frameInstructions settings nofun nofun nofun nofun)

/-- The lines of a frame in front of one of its corners. -/
def frameHead (settings : Settings) (before : Path Float) : List Instruction :=
  [Instruction.absolute, Instruction.seekRate settings.maxSeekSpeed.toNat] ++
    before.map Instruction.frame

/-- A frame with a corner at infinity names infinity and is refused at the first such
corner. -/
theorem readProgram_of_split (settings : Settings) {job : Job} {before after : Path Float}
    {corner : Point Float} (split : job.wholeStats.box.outline = before ++ corner :: after)
    (readable : ∀ point ∈ before, point.IsFinite) (infinite : corner.x = Scalar.infinity)
    (ends : IsEnd corner.y) :
    'X' :: infinityText <:+: (encodeFrame settings job).toList ∧
      readProgram (encodeFrame settings job) = .error ⟨before.length + 3, "X"⟩ := by
  have program : frameInstructions settings job =
      frameHead settings before ++ Instruction.frame corner ::
        (after.map Instruction.frame ++ [Instruction.home settings.maxSeekSpeed.toNat]) := by
    simp only [frameInstructions, frameHead, split, List.map_append, List.map_cons,
      List.append_assoc, List.cons_append]
  have sampled := isSampled_of_mem_frameInstructions settings job
  rw [program] at sampled
  have moves : ∀ instruction ∈ frameHead settings before, instruction.IsReadable := by
    simp only [frameHead, List.forall_mem_append, List.forall_mem_cons, List.forall_mem_map,
      List.not_mem_nil, false_implies, implies_true, and_true]
    exact ⟨⟨trivial, trivial⟩, readable⟩
  have counted : (frameHead settings before).length + 1 = before.length + 3 := by
    rw [frameHead, List.length_append, List.length_map, Nat.add_right_comm, Nat.add_comm]
    rfl
  have refused := readProgram_of_infinite infinite framePlaces ends sampled moves
  rw [counted] at refused
  rw [encodeFrame, program, String.toList_ofList]
  exact ⟨infix_programText infinite framePlaces _ _, refused⟩

/-- The frame of a fresh box is refused at its first corner, and that of a spoiled box at its
second one. -/
theorem readProgram_of_not_isFinite (settings : Settings) {job : Job}
    (infinite : job.wholeStats.box = .empty ∨ job.wholeStats.box.IsSpoiled) :
    'X' :: infinityText <:+: (encodeFrame settings job).toList ∧
      ∃ line, readProgram (encodeFrame settings job) = .error ⟨line, "X"⟩ := by
  rcases infinite with fresh | ⟨minX, minY, maxX, -⟩
  · have refused := @readProgram_of_split settings job [] _ _ rfl nofun
      (by rw [fresh]; rfl) (by rw [fresh]; exact .inr rfl)
    exact refused.imp_right fun fault => ⟨_, fault⟩
  · have refused := @readProgram_of_split settings job [_] _ _ rfl
      (List.forall_mem_singleton.mpr ⟨minX, minY⟩) maxX (.inl minY)
    exact refused.imp_right fun fault => ⟨_, fault⟩

/-- The frame of a job can be read just when the job has strokes or rasters and every color
of it has a line, and then it draws nothing.  Otherwise the frame names infinity, and the
reader refuses the word. -/
theorem readProgram_encodeFrame (settings : Settings) {job : Job} (paths : job.HasFinitePaths)
    (corners : job.HasFiniteCorners)
    (current : job.stats = job.freshStats ∨ job.stats.whole? = none) :
    ((∃ drawing, readProgram (encodeFrame settings job) = .ok drawing ∧ drawing.paths = []) ↔
        job.IsFramed) ∧
      (¬ job.IsFramed →
        'X' :: infinityText <:+: (encodeFrame settings job).toList ∧
          ∃ line, readProgram (encodeFrame settings job) = .error ⟨line, "X"⟩) := by
  have whole := Job.wholeStats_eq current
  have framed (known : job.IsFramed) :
      readProgram (encodeFrame settings job) = .ok Reader.start.drawing := by
    refine readProgram_of_isFinite settings ?_
    rw [whole]
    exact known.isFinite_foldl_scopes paths corners
  have bare (other : ¬ job.IsFramed) := by
    refine @readProgram_of_not_isFinite settings job ?_
    rw [whole]
    exact Job.foldl_scopes_of_not_isFramed paths corners other
  refine ⟨⟨?_, fun known => ⟨_, framed known, rfl⟩⟩, bare⟩
  rintro ⟨drawing, read, -⟩
  by_contra other
  obtain ⟨-, line, fault⟩ := bare other
  rw [read] at fault
  cases fault

/-- The sample job with another color, which has no line, and with fresh statistics. -/
def unframed : Job :=
  let job : Job :=
    { Job.sample with
      colors := ⟨[("#000000", [[⟨1.5, 2⟩, ⟨3, 4.25⟩]]), ("#ff0000", [[⟨5, 6⟩]])], by decide⟩ }
  { job with stats := job.freshStats }

/-- The frame of the sample job is read, and the one with a color without a line is refused. -/
theorem readProgram_frame_sample :
    (∃ drawing, readProgram (encodeFrame .default .sample) = .ok drawing ∧ drawing.paths = []) ∧
      ∃ line, readProgram (encodeFrame .default unframed) = .error ⟨line, "X"⟩ := by
  have rasters : ∀ raster ∈ Job.sample.rasters,
      raster.HasFiniteCorners Settings.default.rasterOffset := by
    simp only [Job.sample, List.forall_mem_cons, List.not_mem_nil, Raster.HasFiniteCorners,
      Point.IsFinite, false_implies, implies_true, and_true]
    decide
  constructor
  · refine (readProgram_encodeFrame .default Job.sample_hasFinitePaths rasters (.inr rfl)).1.mpr ?_
    refine ⟨.inr (List.cons_ne_nil _ _), ?_⟩
    simp only [Job.sample, List.forall_mem_singleton]
    exact ⟨_, List.mem_cons_self, by decide⟩
  · have paths : unframed.HasFinitePaths := by
      simp only [Job.HasFinitePaths, unframed, List.forall_mem_cons, List.not_mem_nil,
        Point.IsFinite, false_implies, implies_true, and_true]
      decide
    refine ((readProgram_encodeFrame .default paths rasters (.inl rfl)).2 fun framed => ?_).2
    obtain ⟨path, inside, long⟩ :=
      framed.lines ("#ff0000", [[⟨5, 6⟩]]) (List.mem_cons_of_mem _ List.mem_cons_self)
    rw [List.mem_singleton.mp inside] at long
    exact absurd long (by decide)

end LaserCut.Machine
