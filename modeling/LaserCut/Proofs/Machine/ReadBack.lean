/-
# Reading the program of a job

The reader and the encoder meet here: of the program of a job the reader finds
the strokes that its passes draw, each coordinate as it was rounded, and the
rates of the last pass that drew one.
-/

import Mathlib
import LaserCut.Proofs.Machine.Encoded
import LaserCut.Proofs.Machine.Running

namespace LaserCut.Machine

open Decimal

/-- The strokes that a pass draws: color by color those with a line to draw. -/
def drawnStrokes (colors : ColorPaths) (pass : Pass) : List (Path Float) :=
  pass.colors.flatMap fun color =>
    ((colors.get? color).getD []).filter fun path => decide (2 ≤ path.length)

/-- The last pass that draws a stroke. -/
def lastDrawing? (job : Job) : Option Pass :=
  (job.passes.filter fun pass => decide (drawnStrokes job.colors pass ≠ [])).getLast?

/-- Whether a point is what the words of another one are read as. -/
def IsReadAs (places : Nat) (written read : Point Float) : Prop :=
  read? (fixed written.x places) = some read.x ∧ read? (fixed written.y places) = some read.y

namespace Reader

/-- Instructions that do not cut leave the drawing as it is. -/
theorem drawing_perform (places : Nat) (reader : Reader) {instruction : Instruction}
    (quiet : ∀ target, instruction ≠ .feed target) :
    (reader.perform places instruction).drawing = reader.drawing := by
  cases instruction with
  | feed target => exact absurd rfl (quiet target)
  | seek target => exact (hasDrawn_seek places reader target).drawing.trans (if_pos rfl)
  | frame corner =>
      by_cases ended : reader.current.isEmpty = true <;>
        simp [drawing_eq, perform, moveTo, endStroke, ended]
  | home rate =>
      by_cases ended : reader.current.isEmpty = true <;>
        simp [drawing_eq, perform, moveTo, endStroke, ended]
  | _ => simp only [drawing_eq, perform]

/-- A program that does not cut leaves the drawing as it is. -/
theorem drawing_run (places : Nat) (program : List Instruction) :
    ∀ reader : Reader, (∀ instruction ∈ program, ∀ target, instruction ≠ .feed target) →
      (reader.run places program).drawing = reader.drawing := by
  induction program with
  | nil => exact fun _ _ => rfl
  | cons instruction rest ih =>
      intro reader quiet
      obtain ⟨first, others⟩ := List.forall_mem_cons.mp quiet
      exact (ih _ others).trans (drawing_perform places reader first)

/-- The moves of a pass draw its strokes. -/
theorem hasDrawn_passMoves (places : Nat) (reader : Reader) (colors : ColorPaths) (pass : Pass) :
    HasDrawn reader (reader.run places (passMoves colors pass))
      ((drawnStrokes colors pass).map (List.map (Point.reread places))) := by
  have strokes := hasDrawn_strokes places
    (pass.colors.flatMap fun color => (colors.get? color).getD []) reader
  rwa [List.flatMap_assoc, List.filter_flatMap] at strokes

end Reader

/-- A drawing with the strokes of another pass.  A pass that draws nothing
leaves the rates as they are. -/
def Drawing.withPass (places : Nat) (colors : ColorPaths) (drawing : Drawing) (pass : Pass) :
    Drawing :=
  if drawnStrokes colors pass = [] then drawing
  else
    ⟨drawing.paths ++ (drawnStrokes colors pass).map (List.map (Point.reread places)),
      some (Quantity.feedrate.constrain pass.feedrate),
      some (Float.ofNat (powerOfIntensity (Quantity.intensity.constrain pass.intensity)))⟩

/-- The lines of a pass add its strokes to the drawing. -/
theorem drawing_passInstructions (places : Nat) (reader : Reader) (colors : ColorPaths)
    (pass : Pass) :
    (reader.run places (passInstructions colors pass)).drawing =
      reader.drawing.withPass places colors pass := by
  have drawn := (Reader.hasDrawn_passMoves places
    ((reader.perform places (.feedRate (Quantity.feedrate.constrain pass.feedrate))).perform places
      (.power (powerOfIntensity (Quantity.intensity.constrain pass.intensity))))
    colors pass).drawing
  rw [Reader.drawn, Reader.drawing_perform _ _ (by simp),
    Reader.drawing_perform _ _ (by simp)] at drawn
  simp only [List.map_eq_nil_iff] at drawn
  exact drawn

/-- The lines of the passes add their strokes pass by pass. -/
theorem drawing_passes (places : Nat) (colors : ColorPaths) (passes : List Pass) :
    ∀ reader : Reader,
      (reader.run places (passes.flatMap (passInstructions colors))).drawing =
        passes.foldl (Drawing.withPass places colors) reader.drawing := by
  induction passes with
  | nil => exact fun _ => rfl
  | cons pass rest ih =>
      intro reader
      rw [List.flatMap_cons, Reader.run_append, ih, drawing_passInstructions]
      rfl

/-- The strokes of the passes, one after the other. -/
theorem paths_foldl_withPass (places : Nat) (colors : ColorPaths) (passes : List Pass) :
    ∀ drawing : Drawing, (passes.foldl (Drawing.withPass places colors) drawing).paths =
      drawing.paths ++
        (passes.flatMap (drawnStrokes colors)).map (List.map (Point.reread places)) := by
  induction passes with
  | nil => simp
  | cons pass rest ih =>
      intro drawing
      rw [List.foldl_cons, ih, List.flatMap_cons, List.map_append, ← List.append_assoc]
      congr 1
      rw [Drawing.withPass]
      split_ifs with undrawn
      · simp [undrawn]
      · rfl

/-- The rates of the passes: those of the last one that draws, if there is
one. -/
theorem rates_foldl_withPass (places : Nat) (colors : ColorPaths) (passes : List Pass) :
    ∀ drawing : Drawing,
      let last := (passes.filter fun pass => decide (drawnStrokes colors pass ≠ [])).getLast?
      let result := passes.foldl (Drawing.withPass places colors) drawing
      result.feedrate = (last.map fun pass => Quantity.feedrate.constrain pass.feedrate).or
          drawing.feedrate ∧
        result.power = (last.map fun pass =>
          Float.ofNat (powerOfIntensity (Quantity.intensity.constrain pass.intensity))).or
          drawing.power := by
  induction passes with
  | nil => exact fun _ => ⟨rfl, rfl⟩
  | cons pass rest ih =>
      intro drawing
      have later := ih (drawing.withPass places colors pass)
      dsimp only at later ⊢
      rw [List.foldl_cons, later.1, later.2]
      by_cases undrawn : drawnStrokes colors pass = []
      · simp [Drawing.withPass, undrawn]
      · rw [List.filter_cons_of_pos (by simpa using undrawn), List.getLast?_cons]
        cases (rest.filter fun pass => decide (drawnStrokes colors pass ≠ [])).getLast? <;>
          simp [Drawing.withPass, undrawn]

/-- What a job draws: the strokes of its passes, each coordinate as it is read from what is
written for it, at the rates of the last pass that draws one. -/
def Drawing.ofJob (places : Nat) (job : Job) : Drawing where
  paths := (job.passes.flatMap (drawnStrokes job.colors)).map (List.map (Point.reread places))
  feedrate := (lastDrawing? job).map fun pass => Quantity.feedrate.constrain pass.feedrate
  power := (lastDrawing? job).map fun pass =>
    Float.ofNat (powerOfIntensity (Quantity.intensity.constrain pass.intensity))

/-- The passes one after the other draw what the job draws. -/
theorem Drawing.foldl_withPass (places : Nat) (job : Job) :
    job.passes.foldl (Drawing.withPass places job.colors) ⟨[], none, none⟩ = .ofJob places job := by
  have strokes := paths_foldl_withPass places job.colors job.passes ⟨[], none, none⟩
  have rates := rates_foldl_withPass places job.colors job.passes ⟨[], none, none⟩
  generalize job.passes.foldl (Drawing.withPass places job.colors) ⟨[], none, none⟩ = drawing at *
  obtain ⟨paths, feedrate, power⟩ := drawing
  simp only [List.nil_append, Option.or_none] at strokes rates
  obtain ⟨rate, level⟩ := rates
  subst strokes rate level
  rfl

/-- The lines of the rasters cut nothing. -/
theorem ne_feed_of_mem_rasters (settings : Settings) (rasters : List Raster) :
    ∀ instruction ∈ rasters.flatMap (rasterInstructions settings), ∀ target,
      instruction ≠ .feed target := by
  intro instruction inside
  obtain ⟨raster, -, member⟩ := List.mem_flatMap.mp inside
  refine forall_mem_rasterInstructions (p := fun instruction => ∀ target, instruction ≠ .feed target)
    ?_ ?_ ?_ ?_ ?_ ?_ instruction member <;> simp

/-- What a whole program draws. -/
theorem drawing_jobInstructions (places : Nat) (settings : Settings) (job : Job) :
    (Reader.start.run places (jobInstructions settings job)).drawing =
      .ofJob places job := by
  rw [← Drawing.foldl_withPass, jobInstructions, Reader.run_append, Reader.run_append, Reader.run_append,
    Reader.drawing_run _ _ _ (by simp), drawing_passes,
    Reader.drawing_run _ _ _ (ne_feed_of_mem_rasters settings job.rasters),
    Reader.drawing_run _ _ _ (by simp)]
  rfl

/-- The program of a job is read, as what the job draws. -/
theorem readProgram_encode_ok (settings : Settings) {job : Job} (paths : job.HasFinitePaths)
    (positions : job.HasFiniteRasters) (rasters : job.HasValidRasters) :
    readProgram (encode settings job) = .ok (.ofJob settings.numDigits.toNat job) := by
  have lines := lines_programText settings.numDigits.toNat
    (isSampled_of_mem_jobInstructions settings rasters)
  have run := Reader.readLines_render settings.numDigits.toNat (by rfl : Reader.start.absolute = true)
    (isReadable_of_mem_jobInstructions settings paths positions)
  rw [readProgram, encode, String.toList_ofList, lines, run,
    ← drawing_jobInstructions settings.numDigits.toNat settings job]
  rfl

/-- The strokes that a job draws have finite coordinates. -/
theorem isFinite_of_mem_drawnStrokes {job : Job} (finite : job.HasFinitePaths) (pass : Pass) :
    ∀ path ∈ drawnStrokes job.colors pass, ∀ point ∈ path, point.IsFinite := by
  intro path inside
  obtain ⟨color, -, member⟩ := List.mem_flatMap.mp inside
  exact finite.get? color path (List.mem_filter.mp member).1

/-- Finite strokes are read as the strokes that their coordinates denote. -/
theorem isReadAs_reread {places : Nat} {paths : List (Path Float)}
    (finite : ∀ path ∈ paths, ∀ point ∈ path, point.IsFinite) :
    List.Forall₂ (List.Forall₂ (IsReadAs places)) paths
      (paths.map (List.map (Point.reread places))) := by
  rw [List.forall₂_map_right_iff, List.forall₂_same]
  intro path inside
  rw [List.forall₂_map_right_iff, List.forall₂_same]
  intro point member
  obtain ⟨x, y⟩ := finite path inside point member
  exact ⟨read?_fixed_eq x places, read?_fixed_eq y places⟩

/-- Reading the program of a job gives the strokes that its passes draw, in
their order and with their coordinates as they were written, at the rates of
the last pass that draws.  Rasters add nothing, whatever their samples look
like. -/
theorem readProgram_encode (settings : Settings) (job : Job) (paths : job.HasFinitePaths)
    (positions : job.HasFiniteRasters) (rasters : job.HasValidRasters) :
    ∃ drawing, readProgram (encode settings job) = .ok drawing ∧
      List.Forall₂ (List.Forall₂ (IsReadAs settings.numDigits.toNat))
        (job.passes.flatMap (drawnStrokes job.colors)) drawing.paths ∧
      drawing.feedrate =
        (lastDrawing? job).map (fun pass => Quantity.feedrate.constrain pass.feedrate) ∧
      drawing.power =
        (lastDrawing? job).map (fun pass =>
          Float.ofNat (powerOfIntensity (Quantity.intensity.constrain pass.intensity))) := by
  refine ⟨.ofJob settings.numDigits.toNat job,
    readProgram_encode_ok settings paths positions rasters, isReadAs_reread ?_, rfl, rfl⟩
  intro path inside
  obtain ⟨pass, -, member⟩ := List.mem_flatMap.mp inside
  exact isFinite_of_mem_drawnStrokes paths pass path member

/-- The sample job draws its only stroke with a line. -/
theorem readProgram_sample :
    ∃ drawing, readProgram (encode .default .sample) = .ok drawing ∧
      drawing.paths.length = 1 ∧ drawing.feedrate = some 1200 ∧ drawing.power = some 128 := by
  obtain ⟨drawing, read, strokes, feedrate, power⟩ := readProgram_encode .default .sample
    Job.sample_hasFinitePaths Job.sample_hasFiniteRasters Job.sample_hasValidRasters
  refine ⟨drawing, read, ?_, ?_, ?_⟩
  · rw [← strokes.length_eq]
    decide
  · rw [feedrate]
    decide
  · rw [power]
    decide +kernel

end LaserCut.Machine
