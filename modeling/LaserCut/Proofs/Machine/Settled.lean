/-
# Jobs that are read from their own programs

A job that was read from its own program has strokes whose coordinates are what
their fixed places denote, and one pass at rates that the machine takes.  Writing
and reading it once more changes nothing but the sign of a coordinate that is
zero: coordinates are written in the same way, feedrates are not limited again,
and the intensity that is found in a power gives that power.
-/

import Mathlib
import LaserCut.Job.Gcode
import LaserCut.Proofs.Decimal.Reread
import LaserCut.Proofs.Machine.ReadBack
import LaserCut.Proofs.Stats

namespace LaserCut

namespace Decimal

variable {places : Nat} {value : Float}

/-- What a coordinate is read as, and how it is written again. -/
theorem reread_spec (finite : value.isFinite) (few : places ≤ mostPlaces) :
    (reread places value).isFinite ∧
      fixed (reread places (reread places value)) places = fixed (reread places value) places ∧
      reread places (reread places value) == reread places value := by
  obtain ⟨negative, mantissa, exponent, parts⟩ := (isFinite_iff value).mp finite
  obtain ⟨read, power, nearest_parts, units⟩ :=
    nearest_placeUnits (isCanonical_of_ofFloat parts) places
  have first : reread places value = signed (negative && mantissa != 0)
      (nearest (placeUnits mantissa exponent places) (-places)) := by
    rw [reread, read?_fixed_nearest parts few, Option.getD_some]
  obtain ⟨below, sign⟩ : ∃ below, (negative && mantissa != 0) = below := ⟨_, rfl⟩
  rw [sign] at first
  have first_parts : Binary.ofFloat (reread places value) = .finite below read power := by
    rw [first]
    exact ofFloat_signed below nearest_parts
  have second : reread places (reread places value) = signed (below && read != 0)
      (nearest (placeUnits mantissa exponent places) (-places)) := by
    rw [reread, read?_fixed_nearest first_parts few, Option.getD_some, units]
  have second_parts : Binary.ofFloat (reread places (reread places value)) =
      .finite (below && read != 0) read power := by
    rw [second]
    exact ofFloat_signed _ nearest_parts
  have back : (reread places value).isFinite := (isFinite_iff _).mpr ⟨_, _, _, first_parts⟩
  refine ⟨back, ?_, ?_⟩
  · rw [fixed_eq second_parts few, fixed_eq first_parts few]
    simp
  · have number : (reread places (reread places value)).isNaN = false := by
      rw [← Bool.not_eq_true, isNaN_iff, second_parts]
      exact Binary.noConfusion
    refine IsSameNumber.beq ?_ number
    rcases eq_or_ne read 0 with rfl | nonzero
    · exact isSameNumber_zero second_parts first_parts
    · have kept : (below && read != 0) = below := by simp [nonzero]
      rw [kept] at second_parts
      exact isSameNumber_of_parts (second_parts.trans first_parts.symm)

end Decimal

/-- What the points of a stroke are read as is written as they are, and is equal to
what it is read as itself. -/
theorem Point.reread_spec {places : Nat} {point : Point Float} (finite : point.IsFinite)
    (few : places ≤ Decimal.mostPlaces) :
    (point.reread places).IsFinite ∧
      Machine.pointWords places ((point.reread places).reread places) =
        Machine.pointWords places (point.reread places) ∧
      ((point.reread places).reread places).IsSame (point.reread places) := by
  have x := Decimal.reread_spec finite.1 few
  have y := Decimal.reread_spec finite.2 few
  refine ⟨⟨x.1, y.1⟩, ?_, ⟨x.2.2, y.2.2⟩⟩
  simp only [Machine.pointWords, Point.reread, x.2.1, y.2.1]

namespace Job

/-- Whether a job has the content of another one, coordinates being equal as
numbers. -/
structure IsSame (job other : Job) : Prop where
  settings : job.settings = other.settings
  colors : Keyed.Agree (List.Forall₂ (List.Forall₂ Point.IsSame)) job.colors other.colors
  rasters : job.rasters = other.rasters
  passes : job.passes = other.passes
  stats : Keyed.Agree Scope.IsSame job.stats other.stats

/-- Taking a drawing keeps the settings. -/
theorem settings_setDrawing (job : Job) (drawing : Machine.Drawing) :
    (job.setDrawing drawing).settings = job.settings := by
  unfold setDrawing
  split_ifs <;> rfl

/-- A drawing replaces all that was taken before. -/
theorem setDrawing_setDrawing (job : Job) (drawing next : Machine.Drawing) :
    (job.setDrawing drawing).setDrawing next = job.setDrawing next := by
  simp only [setDrawing.eq_1 (job.setDrawing drawing), setPaths, clear, settings_setDrawing]
  rfl

/-- A job that has taken a drawing has its strokes and no rasters. -/
theorem content_setDrawing (job : Job) {paths : List (Path Float)}
    (finite : ∀ path ∈ paths, ∀ point ∈ path, point.IsFinite) (feedrate power : Option Float) :
    (job.setDrawing ⟨paths, feedrate, power⟩).HasFinitePaths ∧
      (job.setDrawing ⟨paths, feedrate, power⟩).rasters = [] := by
  cases paths with
  | nil => exact ⟨fun entry inside => absurd inside List.not_mem_nil, rfl⟩
  | cons first rest =>
      refine ⟨fun entry inside => ?_, rfl⟩
      change entry ∈ [(drawingColor, first :: rest)] at inside
      rw [List.mem_singleton.mp inside]
      exact finite

/-- A job without rasters has none at a place that is not finite. -/
theorem hasFiniteRasters_of_nil {job : Job} (noRasters : job.rasters = []) :
    job.HasFiniteRasters := by
  rw [HasFiniteRasters, noRasters]
  exact fun raster inside => absurd inside List.not_mem_nil

/-- A job without rasters has none whose samples do not fit. -/
theorem hasValidRasters_of_nil {job : Job} (noRasters : job.rasters = []) :
    job.HasValidRasters := by
  rw [HasValidRasters, noRasters]
  exact fun raster inside => absurd inside List.not_mem_nil

/-- Strokes of the same points make the same job. -/
theorem isSame_setDrawing (job : Job) {paths paths' : List (Path Float)}
    (same : List.Forall₂ (List.Forall₂ Point.IsSame) paths' paths) (feedrate power : Option Float) :
    (job.setDrawing ⟨paths', feedrate, power⟩).IsSame (job.setDrawing ⟨paths, feedrate, power⟩) := by
  have agree : Keyed.Agree (List.Forall₂ (List.Forall₂ Point.IsSame))
      (.ofList [(drawingColor, paths')]) (.ofList [(drawingColor, paths)]) :=
    .cons ⟨rfl, same⟩ .nil
  have undrawn : Keyed.Agree (List.Forall₂ (List.Forall₂ Point.IsSame)) .empty .empty := .nil
  cases same with
  | nil => exact ⟨rfl, undrawn, rfl, rfl, Stats.agree_compute undrawn job.settings.rasterOffset⟩
  | cons first rest =>
      exact ⟨rfl, agree, rfl, rfl, Stats.agree_compute agree job.settings.rasterOffset⟩

end Job

namespace Machine

open Decimal

/-- The moves of a job that has taken a drawing are those along its strokes. -/
theorem jobInstructions_setDrawing (settings : Settings) (job : Job) (start : Path Float)
    (paths : List (Path Float)) (feedrate power : Float) :
    jobInstructions settings (job.setDrawing ⟨start :: paths, some feedrate, some power⟩) =
      [.absolute, .airOn, .seekRate settings.maxSeekSpeed.toNat,
        .feedRate (Quantity.feedrate.constrain feedrate),
        .power (powerOfIntensity (Quantity.intensity.constrain (intensityOfPower power)))] ++
      (start :: paths).flatMap strokeInstructions ++
      [.airOff, .power 0, .home settings.maxSeekSpeed.toNat] := by
  have found : (Keyed.ofList [(Job.drawingColor, start :: paths)]).get? Job.drawingColor =
      some (start :: paths) := Keyed.get?_insert_self _ _ _
  simp [jobInstructions, Job.setDrawing, Job.setPaths, Job.clear, Job.new, Job.recompute,
    Job.addPass, passInstructions, passMoves, found]

/-- The texts of two programs follow each other. -/
theorem programText_append (places : Nat) (first second : List Instruction) :
    programText places (first ++ second) = programText places first ++ programText places second :=
  List.flatMap_append

/-- Whether two points are written with the same words. -/
def WrittenAlike (places : Nat) (point other : Point Float) : Prop :=
  pointWords places point = pointWords places other

/-- A stroke whose points are written alike has the same text. -/
theorem programText_stroke {places : Nat} {path path' : Path Float}
    (alike : List.Forall₂ (WrittenAlike places) path' path) :
    programText places (strokeInstructions path') = programText places (strokeInstructions path) := by
  have feeds {path path' : Path Float} (alike : List.Forall₂ (WrittenAlike places) path' path) :
      programText places (path'.map .feed) = programText places (path.map .feed) := by
    have words : path'.map (pointWords places) = path.map (pointWords places) := by
      rw [← List.forall₂_eq_eq_eq, List.forall₂_map_left_iff, List.forall₂_map_right_iff]
      exact alike
    have texts (path : Path Float) : programText places (path.map .feed) =
        (path.map (pointWords places)).flatMap fun words => "G1".toList ++ words ++ ['\n'] := by
      rw [programText, List.flatMap_map, List.flatMap_map]
      rfl
    rw [texts, texts, words]
  cases alike with
  | nil => rfl
  | @cons start' start rest' rest first behind =>
      have opening : (Instruction.seek start').render places = (Instruction.seek start).render places :=
        congrArg ("G0".toList ++ ·) first
      have later := feeds behind
      rw [programText, programText] at later
      rw [strokeInstructions, strokeInstructions, programText, programText, List.flatMap_cons,
        List.flatMap_cons, opening, later]

/-- Strokes whose points are written alike have the same text. -/
theorem programText_strokes {places : Nat} {paths paths' : List (Path Float)}
    (alike : List.Forall₂ (List.Forall₂ (WrittenAlike places)) paths' paths) :
    programText places (paths'.flatMap strokeInstructions) =
      programText places (paths.flatMap strokeInstructions) := by
  induction alike with
  | nil => rfl
  | cons first _ ih =>
      rw [List.flatMap_cons, List.flatMap_cons, programText_append, programText_append, ih,
        programText_stroke first]

/-- Drawings whose points are written alike make jobs with the same program. -/
theorem encode_setDrawing (settings : Settings) (job : Job) {paths paths' : List (Path Float)}
    (alike : List.Forall₂ (List.Forall₂ (WrittenAlike settings.numDigits.toNat)) paths' paths)
    (feedrate power : Float) :
    encode settings (job.setDrawing ⟨paths', some feedrate, some power⟩) =
      encode settings (job.setDrawing ⟨paths, some feedrate, some power⟩) := by
  have moves := programText_strokes alike
  cases alike with
  | nil => rfl
  | cons first rest =>
      rw [encode, encode, jobInstructions_setDrawing, jobInstructions_setDrawing]
      simp only [programText_append, moves]

/-- A job that has taken a drawing draws it: the strokes with a line, at what the
machine is given for its rates. -/
theorem drawing_setDrawing (places : Nat) (job : Job) {paths : List (Path Float)}
    (nonempty : paths ≠ []) (lines : ∀ path ∈ paths, 2 ≤ path.length) (feedrate power : Float) :
    Drawing.ofJob places (job.setDrawing ⟨paths, some feedrate, some power⟩) =
      ⟨paths.map (List.map (Point.reread places)), some (Quantity.feedrate.constrain feedrate),
        some (Float.ofNat
          (powerOfIntensity (Quantity.intensity.constrain (intensityOfPower power))))⟩ := by
  obtain ⟨first, rest, rfl⟩ := List.exists_cons_of_ne_nil nonempty
  have found : (Keyed.ofList [(Job.drawingColor, first :: rest)]).get? Job.drawingColor =
      some (first :: rest) := Keyed.get?_insert_self _ _ _
  have drawn : drawnStrokes (.ofList [(Job.drawingColor, first :: rest)])
      ⟨[Job.drawingColor], feedrate, intensityOfPower power⟩ = first :: rest := by
    simpa [drawnStrokes, found] using lines
  rw [← Drawing.foldl_withPass]
  change Drawing.withPass places (.ofList [(Job.drawingColor, first :: rest)]) ⟨[], none, none⟩
    ⟨[Job.drawingColor], feedrate, intensityOfPower power⟩ = _
  rw [Drawing.withPass, drawn, if_neg (List.cons_ne_nil _ _), List.nil_append]

/-- Every stroke that a job draws has a line. -/
theorem two_le_length_of_mem_drawnStrokes {colors : ColorPaths} {pass : Pass} {path : Path Float}
    (inside : path ∈ drawnStrokes colors pass) : 2 ≤ path.length := by
  obtain ⟨color, -, member⟩ := List.mem_flatMap.mp inside
  exact of_decide_eq_true (List.mem_filter.mp member).2

/-- A job without a pass that draws draws nothing. -/
theorem drawnStrokes_of_lastDrawing? {job : Job} (undrawn : lastDrawing? job = none) :
    job.passes.flatMap (drawnStrokes job.colors) = [] := by
  rw [lastDrawing?, List.getLast?_eq_none_iff, List.filter_eq_nil_iff] at undrawn
  rw [List.flatMap_eq_nil_iff]
  intro pass inside
  simpa using undrawn pass inside

/-- The strokes of a pass that draws are among those of its job. -/
theorem drawnStrokes_ne_nil {job : Job} {pass : Pass} (last : lastDrawing? job = some pass) :
    job.passes.flatMap (drawnStrokes job.colors) ≠ [] := by
  obtain ⟨inside, draws⟩ := List.mem_filter.mp (List.mem_of_getLast? last)
  intro undrawn
  exact of_decide_eq_true draws (List.flatMap_eq_nil_iff.mp undrawn pass inside)

/-- What a job draws is taken from its program. -/
theorem setProgram_encode_ok (settings : Settings) {job : Job} (paths : job.HasFinitePaths)
    (positions : job.HasFiniteRasters) (rasters : job.HasValidRasters) :
    job.setProgram (encode settings job) =
      .ok (job.setDrawing (.ofJob settings.numDigits.toNat job)) := by
  rw [Job.setProgram, readProgram_encode_ok settings paths positions rasters]
  rfl

/-- What strokes are read as is read as equal points again, and written alike. -/
theorem reread_strokes {places : Nat} (few : places ≤ mostPlaces) {strokes : List (Path Float)}
    (finite : ∀ path ∈ strokes, ∀ point ∈ path, point.IsFinite) :
    let paths := strokes.map (List.map (Point.reread places))
    (∀ path ∈ paths, ∀ point ∈ path, point.IsFinite) ∧
      List.Forall₂ (List.Forall₂ Point.IsSame) (paths.map (List.map (Point.reread places))) paths ∧
      List.Forall₂ (List.Forall₂ (WrittenAlike places))
        (paths.map (List.map (Point.reread places))) paths := by
  intro paths
  have each : ∀ path ∈ paths, ∀ point ∈ path, point.IsFinite ∧
      (point.reread places).IsSame point ∧ WrittenAlike places (point.reread places) point := by
    intro path inside point member
    obtain ⟨stroke, among, rfl⟩ := List.mem_map.mp inside
    obtain ⟨origin, on, rfl⟩ := List.mem_map.mp member
    obtain ⟨back, words, same⟩ := Point.reread_spec (finite stroke among origin on) few
    exact ⟨back, same, words⟩
  refine ⟨fun path inside point member => (each path inside point member).1, ?_, ?_⟩
  all_goals
    rw [List.forall₂_map_left_iff, List.forall₂_same]
    intro path inside
    rw [List.forall₂_map_left_iff, List.forall₂_same]
    intro point member
  · exact (each path inside point member).2.1
  · exact (each path inside point member).2.2

/-- A drawing of coordinates as they are read, at rates that the machine takes,
makes a job that has settled. -/
theorem settled_setDrawing (settings : Settings) (job : Job)
    (few : settings.numDigits.toNat ≤ mostPlaces) {strokes : List (Path Float)}
    (nonempty : strokes ≠ []) (lines : ∀ path ∈ strokes, 2 ≤ path.length)
    (finite : ∀ path ∈ strokes, ∀ point ∈ path, point.IsFinite) {feedrate : Float} {level : Nat}
    (rate : Quantity.feedrate.constrain feedrate = feedrate)
    (power : powerOfIntensity
      (Quantity.intensity.constrain (intensityOfPower (Float.ofNat level))) = level)
    {first : Job}
    (taken : job.setDrawing
      ⟨strokes.map (List.map (Point.reread settings.numDigits.toNat)), some feedrate,
        some (Float.ofNat level)⟩ = first) :
    ∃ second, first.setProgram (encode settings first) = .ok second ∧ second.IsSame first ∧
      encode settings second = encode settings first := by
  obtain ⟨finite_paths, same, alike⟩ := reread_strokes few finite
  have nonempty_paths : strokes.map (List.map (Point.reread settings.numDigits.toNat)) ≠ [] :=
    mt List.map_eq_nil_iff.mp nonempty
  have lines_paths : ∀ path ∈ strokes.map (List.map (Point.reread settings.numDigits.toNat)),
      2 ≤ path.length := by
    intro path inside
    obtain ⟨stroke, among, rfl⟩ := List.mem_map.mp inside
    rw [List.length_map]
    exact lines stroke among
  generalize strokes.map (List.map (Point.reread settings.numDigits.toNat)) = paths at *
  have drawn := drawing_setDrawing settings.numDigits.toNat job nonempty_paths lines_paths feedrate
    (Float.ofNat level)
  obtain ⟨finite_first, no_rasters⟩ :=
    job.content_setDrawing finite_paths (some feedrate) (some (Float.ofNat level))
  have again := fun next => job.setDrawing_setDrawing
    ⟨paths, some feedrate, some (Float.ofNat level)⟩ next
  have texts := encode_setDrawing settings job alike feedrate (Float.ofNat level)
  have content := job.isSame_setDrawing same (some feedrate) (some (Float.ofNat level))
  rw [taken] at drawn finite_first no_rasters again texts content
  rw [rate, power] at drawn
  have read := setProgram_encode_ok settings finite_first
    (Job.hasFiniteRasters_of_nil no_rasters) (Job.hasValidRasters_of_nil no_rasters)
  rw [drawn, again] at read
  exact ⟨_, read, content, texts⟩

/-- A job that is read from the program of a job has settled: its own program is read
as the same job, with coordinates that are equal as numbers, and the program of
that job is the same text. -/
theorem setProgram_encode_settled (settings : Settings) (job : Job)
    (digits : settings.numDigits.toNat ≤ 8) (paths : job.HasFinitePaths)
    (positions : job.HasFiniteRasters) (rasters : job.HasValidRasters) :
    ∃ first second, job.setProgram (encode settings job) = .ok first ∧
      first.setProgram (encode settings first) = .ok second ∧
      first.settings = job.settings ∧ second.IsSame first ∧
      encode settings second = encode settings first := by
  have few : settings.numDigits.toNat ≤ mostPlaces := digits.trans (by decide)
  have read := setProgram_encode_ok settings paths positions rasters
  rw [Drawing.ofJob] at read
  cases last : lastDrawing? job with
  | none =>
      -- nothing is drawn, so the job has neither strokes nor passes left
      rw [last, drawnStrokes_of_lastDrawing? last] at read
      obtain ⟨finite_first, no_rasters⟩ :=
        job.content_setDrawing (fun path inside => absurd inside List.not_mem_nil) none none
      have reread := setProgram_encode_ok settings finite_first
        (Job.hasFiniteRasters_of_nil no_rasters) (Job.hasValidRasters_of_nil no_rasters)
      have again := job.setDrawing_setDrawing ⟨[], none, none⟩ ⟨[], none, none⟩
      exact ⟨_, _, read, reread.trans (congrArg Except.ok again), job.settings_setDrawing _,
        job.isSame_setDrawing .nil none none, rfl⟩
  | some pass =>
      obtain ⟨second, reread, same, texts⟩ := settled_setDrawing settings job few
        (drawnStrokes_ne_nil last)
        (fun path inside => by
          obtain ⟨pass, -, member⟩ := List.mem_flatMap.mp inside
          exact two_le_length_of_mem_drawnStrokes member)
        (fun path inside => by
          obtain ⟨pass, -, member⟩ := List.mem_flatMap.mp inside
          exact isFinite_of_mem_drawnStrokes paths pass path member)
        (Quantity.constrain_constrain .feedrate pass.feedrate)
        (powerOfIntensity_intensityOfPower pass.intensity) rfl
      rw [last] at read
      exact ⟨_, second, read, reread, job.settings_setDrawing _, same, texts⟩

/-- The sample job draws with its first pass, and has settled once it is read. -/
theorem setProgram_encode_sample :
    Settings.default.numDigits.toNat ≤ 8 ∧
      lastDrawing? .sample = some ⟨["#000000", "#ff0000"], 1200, 50⟩ ∧
      ∃ first second, Job.sample.setProgram (encode .default .sample) = .ok first ∧
        first.setProgram (encode .default first) = .ok second ∧
        first.settings = .default ∧ second.IsSame first ∧
        encode .default second = encode .default first := by
  have digits : Settings.default.numDigits.toNat ≤ 8 := by decide
  exact ⟨digits, by rfl, setProgram_encode_settled .default .sample digits
    Job.sample_hasFinitePaths Job.sample_hasFiniteRasters Job.sample_hasValidRasters⟩

end Machine

end LaserCut
