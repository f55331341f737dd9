/-
# The rates at which a program cuts

A machine obeys the feedrate and the power that were set last.  These are
followed here in the lines of a program, so that each feed can be told the
rates it is executed at: they are those of the pass it belongs to, whatever
rasters and earlier passes have set.
-/

import Mathlib
import LaserCut.Proofs.Machine.Encoded

namespace LaserCut.Machine

open Decimal

/-- Whether a line is a feed. -/
def isFeedLine (line : List Char) : Bool :=
  "G1X".toList.isPrefixOf line

/-- Whether a line sets the feedrate of feeds. -/
def isRateLine (line : List Char) : Bool :=
  "G1F".toList.isPrefixOf line

/-- Whether a line sets the power. -/
def isPowerLine (line : List Char) : Bool :=
  "S".toList.isPrefixOf line

/-- The texts of the feedrate and of the power that were set last. -/
structure Rates where
  feedrate : Option (List Char)
  power : Option (List Char)
  deriving DecidableEq

namespace Rates

/-- Nothing has been set. -/
def unset : Rates :=
  ⟨none, none⟩

/-- The rates after another line. -/
def after (rates : Rates) (line : List Char) : Rates :=
  if isRateLine line then { rates with feedrate := some (line.drop 3) }
  else if isPowerLine line then { rates with power := some (line.drop 1) }
  else rates

end Rates

/-- The feeds among lines, each with the rates in force. -/
def ratedFeeds (rates : Rates) : List (List Char) → List (List Char × Rates)
  | [] => []
  | line :: rest =>
      if isFeedLine line then (line, rates) :: ratedFeeds rates rest
      else ratedFeeds (rates.after line) rest

theorem ratedFeeds_append (first second : List (List Char)) :
    ∀ rates, ∃ left, ratedFeeds rates (first ++ second) =
      ratedFeeds rates first ++ ratedFeeds left second := by
  induction first with
  | nil => exact fun rates => ⟨rates, rfl⟩
  | cons line rest ih =>
      intro rates
      rw [List.cons_append, ratedFeeds, ratedFeeds]
      split_ifs with feed
      · obtain ⟨left, split⟩ := ih rates
        exact ⟨left, by rw [split, List.cons_append]⟩
      · exact ih (rates.after line)

/-- Lines without a feed add none. -/
theorem ratedFeeds_eq_nil {lines : List (List Char)}
    (quiet : ∀ line ∈ lines, isFeedLine line = false) :
    ∀ rates, ratedFeeds rates lines = [] := by
  induction lines with
  | nil => exact fun _ => rfl
  | cons line rest ih =>
      intro rates
      obtain ⟨first, others⟩ := List.forall_mem_cons.mp quiet
      rw [ratedFeeds, first]
      exact ih others _

section Passes

variable (places : Nat) (colors : ColorPaths)

/-- The text of the feedrate of a pass. -/
def feedrateText (pass : Pass) : List Char :=
  numberText (Quantity.feedrate.constrain pass.feedrate)

/-- The text of the power of a pass. -/
def powerText (pass : Pass) : List Char :=
  digitsOf (powerOfIntensity (Quantity.intensity.constrain pass.intensity))

/-- The rates that a pass sets. -/
def passRates (pass : Pass) : Rates :=
  ⟨some (feedrateText pass), some (powerText pass)⟩

/-- The points that a pass cuts to: those of its strokes without the first. -/
def passFeeds (pass : Pass) : List (Point Float) :=
  pass.colors.flatMap fun color => ((colors.get? color).getD []).flatMap List.tail

/-- The lines of a pass: its rates and then its moves. -/
def passLines (pass : Pass) : List (List Char) :=
  ("G1F".toList ++ feedrateText pass) :: ("S".toList ++ powerText pass) ::
    (passMoves colors pass).map (Instruction.render places)

/-- The feeds of a stroke are executed at the rates in force before it. -/
theorem ratedFeeds_stroke (stroke : Path Float) (rates : Rates) (rest : List (List Char)) :
    ratedFeeds rates ((strokeInstructions stroke).map (Instruction.render places) ++ rest) =
      stroke.tail.map (fun target => (Instruction.render places (.feed target), rates)) ++
        ratedFeeds rates rest := by
  have feeds (targets : List (Point Float)) :
      ratedFeeds rates ((targets.map Instruction.feed).map (Instruction.render places) ++ rest) =
        targets.map (fun target => (Instruction.render places (.feed target), rates)) ++
          ratedFeeds rates rest := by
    induction targets with
    | nil => rfl
    | cons target targets ih =>
        have feed : isFeedLine (Instruction.render places (.feed target)) = true := rfl
        rw [List.map_cons, List.map_cons, List.cons_append, ratedFeeds, if_pos feed, ih]
        rfl
  cases stroke with
  | nil => rfl
  | cons start targets => exact feeds targets

/-- The feeds of the moves of a pass are executed at the rates in force before
them. -/
theorem ratedFeeds_strokes (strokes : List (Path Float)) (rates : Rates) :
    ratedFeeds rates ((strokes.flatMap strokeInstructions).map (Instruction.render places)) =
      (strokes.flatMap List.tail).map
        fun target => (Instruction.render places (.feed target), rates) := by
  induction strokes with
  | nil => rfl
  | cons stroke strokes ih =>
      rw [List.flatMap_cons, List.map_append, ratedFeeds_stroke, ih, List.flatMap_cons,
        List.map_append]

/-- The feeds of a pass are executed at its rates. -/
theorem ratedFeeds_passLines (pass : Pass) (rates : Rates) :
    ratedFeeds rates (passLines places colors pass) =
      (passFeeds colors pass).map
        fun target => (Instruction.render places (.feed target), passRates pass) := by
  have moves := ratedFeeds_strokes places
    (pass.colors.flatMap fun color => (colors.get? color).getD []) (passRates pass)
  rw [List.flatMap_assoc, List.flatMap_assoc] at moves
  exact moves

/-- The feeds of the passes are executed at the rates of their own pass. -/
theorem ratedFeeds_passes (passes : List Pass) :
    ∀ rates, ratedFeeds rates (passes.flatMap (passLines places colors)) =
      passes.flatMap fun pass => (passFeeds colors pass).map
        fun target => (Instruction.render places (.feed target), passRates pass) := by
  induction passes with
  | nil => exact fun _ => rfl
  | cons pass rest ih =>
      intro rates
      obtain ⟨left, split⟩ := ratedFeeds_append (passLines places colors pass)
        (rest.flatMap (passLines places colors)) rates
      rw [List.flatMap_cons, split, ratedFeeds_passLines, ih left, List.flatMap_cons]

end Passes

/-- The lines before the passes: the header and the rasters. -/
def openingLines (settings : Settings) (job : Job) : List (List Char) :=
  List.map (Instruction.render settings.numDigits.toNat)
    ([.absolute, .airOn, .seekRate settings.maxSeekSpeed.toNat] ++
      job.rasters.flatMap (rasterInstructions settings))

/-- The lines after the passes. -/
def closingLines (settings : Settings) : List (List Char) :=
  ["M81".toList, "S0".toList, "G0X0Y0F".toList ++ digitsOf settings.maxSeekSpeed.toNat]

/-- The lines of a job: those before the passes, the passes, and the end. -/
theorem lines_encode (settings : Settings) {job : Job} (rasters : job.HasValidRasters) :
    Text.lines (encode settings job).toList =
      openingLines settings job ++
        job.passes.flatMap (passLines settings.numDigits.toNat job.colors) ++
        closingLines settings := by
  have lines := lines_programText settings.numDigits.toNat
    (isSampled_of_mem_jobInstructions settings rasters)
  rw [encode, String.toList_ofList, lines, jobInstructions, List.map_append, List.map_append,
    List.map_flatMap]
  rfl

/-- The lines before the passes cut nothing and set no power. -/
theorem openingLines_spec (settings : Settings) (job : Job) :
    ∀ line ∈ openingLines settings job, isFeedLine line = false ∧ isPowerLine line = false := by
  intro line inside
  obtain ⟨instruction, member, rfl⟩ := List.mem_map.mp inside
  rcases List.mem_append.mp member with heading | inside
  · simp only [List.mem_cons, List.not_mem_nil, or_false] at heading
    rcases heading with rfl | rfl | rfl <;> exact ⟨rfl, rfl⟩
  · obtain ⟨raster, -, member⟩ := List.mem_flatMap.mp inside
    exact forall_mem_rasterInstructions
      (p := fun instruction =>
        isFeedLine (instruction.render _) = false ∧ isPowerLine (instruction.render _) = false)
      ⟨rfl, rfl⟩ ⟨rfl, rfl⟩ ⟨rfl, rfl⟩ ⟨rfl, rfl⟩ ⟨rfl, rfl⟩ (fun _ _ _ _ => ⟨rfl, rfl⟩)
      instruction member

/-- The lines after the passes cut nothing, and they set the power to zero. -/
theorem closingLines_spec (settings : Settings) :
    ∀ line ∈ closingLines settings, isFeedLine line = false ∧ isRateLine line = false ∧
      (isPowerLine line = true → line = "S0".toList) := by
  intro line inside
  simp only [closingLines, List.mem_cons, List.not_mem_nil, or_false] at inside
  rcases inside with rfl | rfl | rfl
  · exact ⟨rfl, rfl, fun power => absurd power (by decide)⟩
  · exact ⟨rfl, rfl, fun _ => rfl⟩
  · exact ⟨rfl, rfl, fun power => by cases power⟩

/-- The moves of a pass set no rates. -/
theorem passMoves_spec (places : Nat) (colors : ColorPaths) (pass : Pass) :
    ∀ line ∈ (passMoves colors pass).map (Instruction.render places),
      isRateLine line = false ∧ isPowerLine line = false := by
  intro line inside
  obtain ⟨instruction, member, rfl⟩ := List.mem_map.mp inside
  obtain ⟨color, -, member⟩ := List.mem_flatMap.mp member
  obtain ⟨stroke, -, member⟩ := List.mem_flatMap.mp member
  cases stroke with
  | nil => cases member
  | cons start targets =>
      rcases List.mem_cons.mp member with rfl | member
      · exact ⟨rfl, rfl⟩
      · obtain ⟨target, -, rfl⟩ := List.mem_map.mp member
        exact ⟨rfl, rfl⟩

/-- The only line of a pass that sets the feedrate is its own. -/
theorem filter_isRateLine_passLines (places : Nat) (colors : ColorPaths) (pass : Pass) :
    (passLines places colors pass).filter isRateLine = ["G1F".toList ++ feedrateText pass] := by
  have moves : ((passMoves colors pass).map (Instruction.render places)).filter isRateLine = [] := by
    rw [List.filter_eq_nil_iff]
    intro line inside
    rw [(passMoves_spec places colors pass line inside).1]
    decide
  have rate : isRateLine ("G1F".toList ++ feedrateText pass) = true := rfl
  have power : ¬ isRateLine ("S".toList ++ powerText pass) = true := nofun
  rw [passLines, List.filter_cons_of_pos rate, List.filter_cons_of_neg power, moves]

/-- The only line of a raster that sets the feedrate is its first one. -/
theorem filter_isRateLine_raster (settings : Settings) (raster : Raster) :
    ((rasterInstructions settings raster).map
      (Instruction.render settings.numDigits.toNat)).filter isRateLine =
        ["G1F".toList ++ digitsOf settings.rasterFeedrate.toNat] := by
  have rate : isRateLine (Instruction.render settings.numDigits.toNat
      (.engraveRate settings.rasterFeedrate.toNat)) = true := rfl
  have seek : ¬ isRateLine (Instruction.render settings.numDigits.toNat
      (.seek raster.position)) = true := nofun
  have dotPitch : ¬ isRateLine (Instruction.render settings.numDigits.toNat
      (.dotPitch settings.kerf)) = true := nofun
  have runway : ¬ isRateLine (Instruction.render settings.numDigits.toNat
      (.runway settings.rasterOffset)) = true := nofun
  have nextRow : ¬ isRateLine (Instruction.render settings.numDigits.toNat .nextRow) = true :=
    nofun
  have rows : ((raster.rows.flatMap (rowInstructions (max settings.rasterLinechars.toNat 1))).map
      (Instruction.render settings.numDigits.toNat)).filter isRateLine = [] := by
    rw [List.filter_eq_nil_iff]
    intro line inside
    obtain ⟨instruction, member, rfl⟩ := List.mem_map.mp inside
    obtain ⟨row, -, member⟩ := List.mem_flatMap.mp member
    exact forall_mem_rowInstructions
      (p := fun instruction => ¬ isRateLine (instruction.render _) = true)
      (fun _ _ => nofun) nextRow instruction member
  simp only [rasterInstructions, List.cons_append, List.nil_append, List.map_cons]
  rw [List.filter_cons_of_pos rate, List.filter_cons_of_neg seek,
    List.filter_cons_of_neg dotPitch, List.filter_cons_of_neg runway,
    List.filter_cons_of_neg nextRow, rows]
  rfl

/-- The feedrates that a program sets: one for each raster, and then one for
each pass. -/
theorem filter_isRateLine_encode (settings : Settings) {job : Job}
    (rasters : job.HasValidRasters) :
    (Text.lines (encode settings job).toList).filter isRateLine =
      job.rasters.map (fun _ => "G1F".toList ++ digitsOf settings.rasterFeedrate.toNat) ++
        job.passes.map (fun pass => "G1F".toList ++ feedrateText pass) := by
  have closing : (closingLines settings).filter isRateLine = [] := by
    rw [List.filter_eq_nil_iff]
    intro line inside
    rw [(closingLines_spec settings line inside).2.1]
    decide
  have opening : (openingLines settings job).filter isRateLine =
      job.rasters.map fun _ => "G1F".toList ++ digitsOf settings.rasterFeedrate.toNat := by
    rw [openingLines, List.map_append, List.filter_append, List.map_flatMap, List.filter_flatMap]
    simp only [filter_isRateLine_raster, ← List.map_eq_flatMap]
    rfl
  rw [lines_encode settings rasters, List.filter_append, List.filter_append, closing,
    List.append_nil, opening, List.filter_flatMap]
  simp only [filter_isRateLine_passLines, ← List.map_eq_flatMap]

/-- The power of a pass is one that the machine takes. -/
theorem powerText_eq (pass : Pass) : ∃ level, level ≤ 255 ∧ powerText pass = digitsOf level :=
  ⟨_, powerOfIntensity_constrain_le pass.intensity, rfl⟩

/-- Every power of a program is one that the machine takes. -/
theorem power_of_mem_encode (settings : Settings) {job : Job} (rasters : job.HasValidRasters) :
    ∀ line ∈ Text.lines (encode settings job).toList, isPowerLine line = true →
      ∃ level, level ≤ 255 ∧ line = 'S' :: digitsOf level := by
  intro line inside power
  rw [lines_encode settings rasters, List.mem_append, List.mem_append] at inside
  rcases inside with (opening | passes) | closing
  · rw [(openingLines_spec settings job line opening).2] at power
    cases power
  · obtain ⟨pass, -, member⟩ := List.mem_flatMap.mp passes
    rcases List.mem_cons.mp member with rfl | member
    · cases power
    rcases List.mem_cons.mp member with rfl | member
    · obtain ⟨level, small, text⟩ := powerText_eq pass
      exact ⟨level, small, by rw [text]; rfl⟩
    · rw [(passMoves_spec _ _ pass line member).2] at power
      cases power
  · exact ⟨0, by decide, (closingLines_spec settings line closing).2.2 power⟩

/-- A program cuts at the rates of the pass that is cut, and these are rates
that the machine takes.  Nothing is cut before the rates of the first pass, and
at the end the air and then the power are turned off.  The warnings tell which
values of which passes were out of range. -/
theorem rates_encode (settings : Settings) (job : Job) (rasters : job.HasValidRasters) :
    let lines := Text.lines (encode settings job).toList
    ratedFeeds .unset lines =
        job.passes.flatMap (fun pass => (passFeeds job.colors pass).map fun target =>
          (Instruction.render settings.numDigits.toNat (.feed target), passRates pass)) ∧
      (∀ line ∈ lines, isPowerLine line = true →
        ∃ level, level ≤ 255 ∧ line = 'S' :: digitsOf level) ∧
      lines.filter isRateLine =
        job.rasters.map (fun _ => "G1F".toList ++ digitsOf settings.rasterFeedrate.toNat) ++
          job.passes.map (fun pass => "G1F".toList ++ feedrateText pass) ∧
      (∀ pass ∈ job.passes,
        ∃ rate : ℚ, Denotes (feedrateText pass) rate ∧ 1 / 10 ≤ rate ∧ rate ≤ 24000) ∧
      (∃ opening, (∀ line ∈ opening, isFeedLine line = false) ∧
        lines = opening ++
          job.passes.flatMap (passLines settings.numDigits.toNat job.colors) ++
          ["M81".toList, "S0".toList, "G0X0Y0F".toList ++ digitsOf settings.maxSeekSpeed.toNat]) ∧
      warnings job = job.passes.flatMap fun pass =>
        (if Quantity.feedrate.IsOutOfRange pass.feedrate then
          [⟨.feedrate, truncate pass.feedrate, Quantity.feedrate.constrain pass.feedrate⟩]
        else []) ++
        (if Quantity.intensity.IsOutOfRange pass.intensity then
          [⟨.intensity, truncate pass.intensity, Quantity.intensity.constrain pass.intensity⟩]
        else []) := by
  have lines := lines_encode settings rasters
  refine ⟨?_, power_of_mem_encode settings rasters, filter_isRateLine_encode settings rasters,
    fun pass _ => denotes_feedrate pass.feedrate, ?_, ?_⟩
  · obtain ⟨afterPasses, closing⟩ := ratedFeeds_append
      (openingLines settings job ++
        job.passes.flatMap (passLines settings.numDigits.toNat job.colors))
      (closingLines settings) .unset
    obtain ⟨afterOpening, passes⟩ := ratedFeeds_append (openingLines settings job)
      (job.passes.flatMap (passLines settings.numDigits.toNat job.colors)) .unset
    rw [lines, closing, passes,
      ratedFeeds_eq_nil fun line inside => (openingLines_spec settings job line inside).1,
      ratedFeeds_eq_nil fun line inside => (closingLines_spec settings line inside).1,
      ratedFeeds_passes, List.nil_append, List.append_nil]
  · exact ⟨openingLines settings job,
      fun line inside => (openingLines_spec settings job line inside).1, lines⟩
  · unfold warnings passWarnings
    simp only [Quantity.warning?_toList]

/-- The sample job cuts once, and both values of its second pass are limited. -/
theorem rates_sample :
    ratedFeeds .unset (Text.lines (encode .default .sample).toList) =
        [("G1X3.00Y4.25".toList, ⟨some "1200".toList, some "128".toList⟩)] ∧
      warnings .sample = [⟨.feedrate, 0, 0.1⟩, ⟨.intensity, 200, 100⟩] := by
  obtain ⟨feeds, -, -, -, -, limited⟩ := rates_encode .default .sample Job.sample_hasValidRasters
  rw [feeds, limited]
  decide +kernel

end LaserCut.Machine
