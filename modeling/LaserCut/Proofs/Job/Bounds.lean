/-
# Bounds of a job

The box of the whole job covers what the job machines as far as the boxes of its scopes are
in order: each of these lies in it, and so does the box of the colors that passes use.  That
box is a union, so it does not matter in which order the passes name their colors.  A scope
whose ends are not in order may stick out.  That of the rasters is always in order, because
a runway and a size that are not negative move the corners of a rectangle apart, however
they are rounded.
-/

import Mathlib
import LaserCut.Proofs.Decimal.Sums
import LaserCut.Proofs.Geometry.Join
import LaserCut.Proofs.Job.Outline

namespace LaserCut

open Decimal

namespace Raster

variable {raster : Raster} {runway : Float}

/-- The rectangle of a raster with the runway on either side. -/
def frame (runway : Float) (raster : Raster) : Box Float :=
  ⟨raster.position.x - runway, raster.position.y, raster.position.x + raster.widthMm + runway,
    raster.position.y + raster.heightMm⟩

/-- Whether a raster does not extend backwards, and its rectangle is finite with the runway on
either side. -/
structure IsPlaced (runway : Float) (raster : Raster) : Prop where
  corners : raster.HasFiniteCorners runway
  width : 0 ≤ raster.widthMm
  height : 0 ≤ raster.heightMm

/-- The rectangle of a raster has its corners in order. -/
theorem IsPlaced.isProper_frame (placed : raster.IsPlaced runway) (nonneg : 0 ≤ runway) :
    (raster.frame runway).IsProper := by
  obtain ⟨⟨⟨left, bottom⟩, right, top⟩, width, height⟩ := placed
  have middle : (raster.position.x + raster.widthMm).isFinite := (isRoundedCount_add right).1.1
  have across : raster.position.x ≤ raster.position.x + raster.widthMm + runway :=
    Decimal.le_trans (le_add middle width) (le_add right nonneg)
  exact ⟨⟨left, bottom, right, top⟩, Decimal.le_trans (Decimal.sub_le left nonneg) across,
    le_add top height⟩

end Raster

namespace Scope

/-- The boxes of scopes are joined. -/
theorem box_foldl_merge (scopes : List (Scope Float)) (start : Scope Float) :
    (scopes.foldl merge start).box = (scopes.map Scope.box).foldl Box.merge start.box := by
  induction scopes generalizing start with
  | nil => rfl
  | cons first rest ih => exact ih (start.merge first)

/-- The rectangles of rasters are joined. -/
theorem box_ofRasters (runway : Float) (rasters : List Raster) :
    (ofRasters runway rasters).box =
      (rasters.map (Raster.frame runway)).foldl Box.merge .empty := by
  have added (start : Scope Float) : (rasters.foldl (addRaster runway) start).box =
      (rasters.map (Raster.frame runway)).foldl Box.merge start.box := by
    induction rasters generalizing start with
    | nil => rfl
    | cons first rest ih => exact ih (start.addRaster runway first)
  exact added .empty

end Scope

namespace Stats

/-- Fresh statistics have the scopes of colors and rasters, and that of the whole. -/
theorem mem_compute {colors : ColorPaths} {rasters : List Raster} {runway : Float}
    {entry : String × Scope Float} (inside : entry ∈ (compute colors rasters runway).entries) :
    entry.2 = (scopes colors rasters runway).foldl Scope.merge .empty ∨
      entry.2 ∈ scopes colors rasters runway := by
  have found := Keyed.get?_of_mem inside
  rw [get?_compute] at found
  split_ifs at found with whole engraved
  · exact .inl (Option.some.inj found).symm
  · exact .inr (mem_scopes_iff.mpr (.inr ⟨engraved.2, (Option.some.inj found).symm⟩))
  · obtain ⟨paths, stored, same⟩ := Option.map_eq_some_iff.mp found
    exact .inr (mem_scopes_iff.mpr (.inl ⟨_, Keyed.mem_of_get? stored, same.symm⟩))

end Stats

namespace Job

variable {job : Job}

/-- The box of the whole is that of the scopes together. -/
theorem box_wholeStats (current : job.stats = job.freshStats) :
    job.wholeStats.box = (job.scopes.map Scope.box).foldl Box.merge .empty := by
  rw [wholeStats_eq (.inl current), Scope.box_foldl_merge]
  rfl

/-- The scopes of a job whose statistics are fresh are those of colors and rasters, and that of
the whole. -/
theorem mem_stats (current : job.stats = job.freshStats) {entry : String × Scope Float}
    (inside : entry ∈ job.stats.entries) : entry.2 = job.wholeStats ∨ entry.2 ∈ job.scopes := by
  rw [current] at inside
  rw [wholeStats_eq (.inl current)]
  exact Stats.mem_compute inside

/-- The whole of a job is grown from a fresh box. -/
theorem contains_empty_of_current (current : job.stats = job.freshStats) :
    job.wholeStats.box.Contains .empty := by
  rw [box_wholeStats current]
  exact Box.contains_empty.foldl_merge _

/-- The box of the whole contains each box in order that it is made of. -/
theorem contains_of_mem_scopes (current : job.stats = job.freshStats) {scope : Scope Float}
    (inside : scope ∈ job.scopes) (ordered : scope.box.IsOrdered) :
    job.wholeStats.box.Contains scope.box := by
  rw [box_wholeStats current]
  exact Box.contains_foldl_merge Box.contains_empty (List.mem_map_of_mem inside) ordered

/-- The box of the whole contains each box in order that the statistics have. -/
theorem contains_of_mem_stats (current : job.stats = job.freshStats) {entry : String × Scope Float}
    (inside : entry ∈ job.stats.entries) (ordered : entry.2.box.IsOrdered) :
    job.wholeStats.box.Contains entry.2.box := by
  rcases mem_stats current inside with whole | listed
  · rw [whole] at ordered ⊢
    exact ordered.contains_self
  · exact contains_of_mem_scopes current listed ordered

/-- The scopes of the colors that passes use. -/
theorem mem_passScopes {scope : Scope Float} : scope ∈ job.passScopes ↔
    ∃ color ∈ job.passes.flatMap Pass.colors, job.stats.get? color = some scope := by
  rw [passScopes, List.mem_filterMap, passColors]
  simp only [List.mem_eraseDups]

/-- The box of the passes is the union of the boxes of their colors. -/
theorem isJoinOf_passBox (proper : ∀ scope ∈ job.passScopes, scope.box.IsProper)
    (nonempty : job.passScopes ≠ []) : job.passBox.IsJoinOf (job.passScopes.map Scope.box) :=
  Box.isJoinOf_foldl_merge (List.forall_mem_map.mpr proper) (mt List.map_eq_nil_iff.mp nonempty)

/-- Passes that use the same colors have the same box as numbers. -/
theorem isSame_passBox (proper : ∀ scope ∈ job.passScopes, scope.box.IsProper)
    (nonempty : job.passScopes ≠ []) {passes : List Pass}
    (same : ∀ color, color ∈ passes.flatMap Pass.colors ↔ color ∈ job.passes.flatMap Pass.colors) :
    ({ job with passes := passes } : Job).passBox.IsSame job.passBox := by
  have scopes (scope : Scope Float) :
      scope ∈ ({ job with passes := passes } : Job).passScopes ↔ scope ∈ job.passScopes := by
    simp only [mem_passScopes, same]
  have nonempty' : ({ job with passes := passes } : Job).passScopes ≠ [] := by
    obtain ⟨scope, inside⟩ := List.exists_mem_of_ne_nil _ nonempty
    exact List.ne_nil_of_mem ((scopes scope).mpr inside)
  have join := isJoinOf_passBox proper nonempty
  have join' :=
    isJoinOf_passBox (fun scope inside => proper scope ((scopes scope).mp inside)) nonempty'
  refine join'.isSame join fun box => ?_
  simp only [List.mem_map, scopes]

/-- How the boxes of a job lie: those of its colors, of its rasters and of its passes in that of
the whole, and that of the passes where it is whatever their order.  A color that has the name
of the rasters or of the whole is not under its name in the statistics; it counts as well. -/
structure IsBounded (job : Job) : Prop where
  scopes : ∀ entry ∈ job.stats.entries, job.wholeStats.box.Contains entry.2.box
  colors : ∀ entry ∈ job.colors.entries, (Scope.ofPaths entry.2).box.IsProper →
    job.wholeStats.box.Contains (Scope.ofPaths entry.2).box
  passes : job.passScopes ≠ [] → job.wholeStats.box.Contains job.passBox
  order : job.passScopes ≠ [] → ∀ passes : List Pass,
    (∀ color, color ∈ passes.flatMap Pass.colors ↔ color ∈ job.passes.flatMap Pass.colors) →
      ({ job with passes := passes } : Job).passBox.IsSame job.passBox

/-- Scopes that are all proper lie as they should. -/
theorem isBounded (current : job.stats = job.freshStats)
    (proper : ∀ entry ∈ job.stats.entries, entry.2.box.IsProper) : job.IsBounded := by
  have each (scope : Scope Float) (inside : scope ∈ job.passScopes) :
      scope.box.IsProper ∧ job.wholeStats.box.Contains scope.box := by
    obtain ⟨color, -, found⟩ := mem_passScopes.mp inside
    have listed := Keyed.mem_of_get? found
    exact ⟨proper _ listed, contains_of_mem_stats current listed (proper _ listed).ordered⟩
  have proper_passes (scope : Scope Float) (inside : scope ∈ job.passScopes) :
      scope.box.IsProper := (each scope inside).1
  constructor
  · exact fun entry inside => contains_of_mem_stats current inside (proper entry inside).ordered
  · intro entry inside known
    have listed : Scope.ofPaths entry.2 ∈ job.scopes :=
      Stats.mem_scopes_iff.mpr (.inl ⟨entry, inside, rfl⟩)
    exact contains_of_mem_scopes current listed known.ordered
  · intro nonempty
    refine (isJoinOf_passBox proper_passes nonempty).contains_of_forall ?_
      (contains_empty_of_current current)
    exact List.forall_mem_map.mpr fun scope inside => (each scope inside).2
  · exact fun nonempty passes same => isSame_passBox proper_passes nonempty same

/-- The whole is proper if all scopes are that it is made of. -/
theorem isProper_freshStats (nonempty : job.scopes ≠ [])
    (proper : ∀ scope ∈ job.scopes, scope.box.IsProper) :
    ∀ entry ∈ job.freshStats.entries, entry.2.box.IsProper := by
  intro entry inside
  rcases Stats.mem_compute inside with whole | listed
  · have boxes : ∀ box ∈ job.scopes.map Scope.box, box.IsProper := List.forall_mem_map.mpr proper
    have nonemptyBoxes : job.scopes.map Scope.box ≠ [] := mt List.map_eq_nil_iff.mp nonempty
    rw [whole, Scope.box_foldl_merge]
    exact (Box.isJoinOf_foldl_merge boxes nonemptyBoxes).isProper boxes nonemptyBoxes
  · exact proper _ listed

/-- Proper boxes are joined to their union in whatever order they come.  So the boxes of a job
lie as they should if all of its scopes are proper, for which it suffices that those of the
colors and rasters are.  That of the rasters always is, and it contains their rectangles. -/
theorem isBounded_of_isProper :
    (∀ boxes : List (Box Float), boxes ≠ [] → (∀ box ∈ boxes, box.IsProper) →
      (boxes.foldl Box.merge .empty).IsJoinOf boxes ∧
        (boxes.foldl Box.merge .empty).IsProper ∧
        ∀ box ∈ boxes, (boxes.foldl Box.merge .empty).Contains box) ∧
    (∀ job : Job, job.stats = job.freshStats →
      (∀ entry ∈ job.stats.entries, entry.2.box.IsProper) → job.IsBounded) ∧
    (∀ job : Job, job.scopes ≠ [] → (∀ scope ∈ job.scopes, scope.box.IsProper) →
      ∀ entry ∈ job.freshStats.entries, entry.2.box.IsProper) ∧
    (∀ (runway : Float) (rasters : List Raster), rasters ≠ [] → 0 ≤ runway →
      (∀ raster ∈ rasters, raster.IsPlaced runway) →
        (Scope.ofRasters runway rasters).box.IsProper ∧
          ∀ raster ∈ rasters,
            (Scope.ofRasters runway rasters).box.Contains (raster.frame runway)) := by
  have union (boxes : List (Box Float)) (nonempty : boxes ≠ [])
      (proper : ∀ box ∈ boxes, box.IsProper) :
      (boxes.foldl Box.merge .empty).IsJoinOf boxes ∧
        (boxes.foldl Box.merge .empty).IsProper ∧
        ∀ box ∈ boxes, (boxes.foldl Box.merge .empty).Contains box := by
    have join := Box.isJoinOf_foldl_merge proper nonempty
    exact ⟨join, join.isProper proper nonempty, fun box inside => join.contains inside⟩
  refine ⟨union, fun _ => isBounded, fun _ => isProper_freshStats, ?_⟩
  intro runway rasters nonempty nonneg placed
  have proper : ∀ box ∈ rasters.map (Raster.frame runway), box.IsProper :=
    List.forall_mem_map.mpr fun raster inside => (placed raster inside).isProper_frame nonneg
  obtain ⟨-, whole, contains⟩ := union _ (mt List.map_eq_nil_iff.mp nonempty) proper
  rw [Scope.box_ofRasters]
  exact ⟨whole, List.forall_mem_map.mp contains⟩

/-- The boxes of the sample job lie as they should, also with its passes the other way around,
and so does a box on the far side of the origin next to one that is a line. -/
theorem isBounded_sample :
    let boxes : List (Box Float) := [⟨5, 1, 5, 7⟩, ⟨-3, -2, -1, -2⟩]
    let passes : List Pass := [⟨["#ff0000"], 0, 0⟩, ⟨["#000000", "#000000"], 1200, 50⟩]
    (boxes.foldl Box.merge .empty).IsJoinOf boxes ∧ sample.recompute.IsBounded ∧
      sample.recompute.wholeStats.box.Contains sample.recompute.passBox ∧
      ({ sample.recompute with passes := passes } : Job).passBox.IsSame sample.recompute.passBox ∧
      (Scope.ofRasters 4 sample.rasters).box.IsProper := by
  intro boxes passes
  obtain ⟨union, bounded, suffices_scopes, rasters⟩ := isBounded_of_isProper
  have proper : ∀ entry ∈ sample.recompute.stats.entries, entry.2.box.IsProper :=
    suffices_scopes sample (by decide +kernel) (by decide +kernel)
  have known := bounded sample.recompute rfl proper
  have nonempty : sample.recompute.passScopes ≠ [] := by decide +kernel
  have same (color : String) : color ∈ passes.flatMap Pass.colors ↔
      color ∈ sample.recompute.passes.flatMap Pass.colors := by
    simp [passes, recompute, sample, or_comm]
  have placed : ∀ raster ∈ sample.rasters, raster.IsPlaced 4 := by
    refine List.forall_mem_singleton.mpr ⟨⟨⟨?_, ?_⟩, ?_, ?_⟩, ?_, ?_⟩ <;> decide
  exact ⟨(union boxes (by decide) (by decide +kernel)).1, known, known.passes nonempty,
    known.order nonempty passes same, (rasters 4 _ (by decide) (by decide) placed).1⟩

end Job

end LaserCut
