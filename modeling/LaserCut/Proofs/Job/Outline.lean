/-
# The box of a whole job

The box of a job is that of its scopes together: one for each color, and one for all
rasters.  The scope of a color without a line is a fresh one, and a fresh one spoils the
box of the whole.  So the box is finite just when there is a scope and every color has a
line.
-/

import Mathlib
import LaserCut.Job.Basic
import LaserCut.Proofs.Geometry.Box

namespace LaserCut

/-- Whether some stroke has a line. -/
def HasLine (paths : List (Path Float)) : Prop :=
  ∃ path ∈ paths, 2 ≤ path.length

/-- Whether the rectangle of a raster is finite with the runway on either side. -/
def Raster.HasFiniteCorners (raster : Raster) (runway : Float) : Prop :=
  Point.IsFinite ⟨raster.position.x - runway, raster.position.y⟩ ∧
    Point.IsFinite ⟨raster.position.x + raster.widthMm + runway,
      raster.position.y + raster.heightMm⟩

namespace Scope

variable {scope : Scope Float}

/-- Only strokes with a line count. -/
theorem ofPaths_eq (paths : List (Path Float)) :
    ofPaths paths = (paths.filter (2 ≤ ·.length)).foldl addStroke empty := by
  rw [List.foldl_filter]
  refine congrArg (fun step => paths.foldl step empty) ?_
  funext scope path
  by_cases long : 2 ≤ path.length
  · simp [long]
  · simp [long, addStroke, Nat.lt_iff_add_one_le]

/-- Strokes without a line have the scope of nothing. -/
theorem ofPaths_of_not_hasLine {paths : List (Path Float)} (lineless : ¬ HasLine paths) :
    ofPaths paths = empty := by
  have short : paths.filter (2 ≤ ·.length) = [] := by
    refine List.filter_eq_nil_iff.mpr fun path inside long => lineless ⟨path, inside, ?_⟩
    simpa using long
  rw [ofPaths_eq, short]
  rfl

/-- Finite strokes with a line among them have a finite box. -/
theorem isFinite_ofPaths {paths : List (Path Float)}
    (seen : ∀ path ∈ paths, ∀ point ∈ path, point.IsFinite) (line : HasLine paths) :
    (ofPaths paths).box.IsFinite := by
  obtain ⟨path, inside, long⟩ := line
  have nonempty : paths.filter (2 ≤ ·.length) ≠ [] :=
    List.ne_nil_of_mem (List.mem_filter.mpr ⟨inside, by simpa using long⟩)
  rw [ofPaths_eq]
  refine @foldl_of_ne_nil _ _ _ (fun scope : Scope Float => scope.box.IsOpen)
    (fun scope => scope.box.IsFinite) _
    (fun scope path listed opened => ?_) (fun _ finite => finite.isOpen) nonempty _ Box.isOpen_empty
  obtain ⟨inside, long⟩ := List.mem_filter.mp listed
  have long : 1 < path.length := of_decide_eq_true long
  rw [addStroke, if_pos long]
  exact opened.foldl_expand (seen path inside) (List.ne_nil_of_length_pos (by omega))

/-- Finite rasters have a finite box together. -/
theorem isFinite_ofRasters {rasters : List Raster} {runway : Float}
    (seen : ∀ raster ∈ rasters, raster.HasFiniteCorners runway) (nonempty : rasters ≠ []) :
    (ofRasters runway rasters).box.IsFinite :=
  @foldl_of_ne_nil _ _ _ (fun scope : Scope Float => scope.box.IsOpen)
    (fun scope => scope.box.IsFinite) _
    (fun _ raster inside opened =>
      (opened.expand (seen raster inside).1).isOpen.expand (seen raster inside).2)
    (fun _ finite => finite.isOpen) nonempty _ Box.isOpen_empty

/-- Scopes with finite boxes have a finite box together. -/
theorem isFinite_foldl_merge {scopes : List (Scope Float)}
    (each : ∀ scope ∈ scopes, scope.box.IsFinite) (nonempty : scopes ≠ []) :
    (scopes.foldl merge empty).box.IsFinite :=
  @foldl_of_ne_nil _ _ _ (fun scope : Scope Float => scope.box.IsOpen)
    (fun scope => scope.box.IsFinite) _
    (fun _ scope inside opened => opened.merge (each scope inside))
    (fun _ finite => finite.isOpen) nonempty _ Box.isOpen_empty

/-- A fresh scope among others spoils their box together, wherever it stands. -/
theorem isSpoiled_foldl_merge {scopes : List (Scope Float)}
    (each : ∀ scope ∈ scopes, scope.box.IsFinite ∨ scope.box = .empty)
    (fresh : ∃ scope ∈ scopes, scope.box = .empty) :
    (scopes.foldl merge empty).box.IsSpoiled := by
  obtain ⟨scope, inside, vacant⟩ := fresh
  obtain ⟨before, after, rfl⟩ := List.append_of_mem inside
  rw [List.forall_mem_append, List.forall_mem_cons] at each
  rw [List.foldl_append, List.foldl_cons]
  have reached : (before.foldl merge empty).box.IsOpen ∨ (before.foldl merge empty).box.IsSpoiled :=
    List.foldlRecOn before merge (.inl Box.isOpen_empty) fun _ known other listed =>
      Box.merge_isOpen_or_isSpoiled known (each.1 other listed)
  have spoiled : ((before.foldl merge empty).merge scope).box.IsSpoiled := by
    rw [Scope.merge, vacant]
    exact Box.merge_empty reached
  refine @List.foldlRecOn _ _ (fun whole => whole.box.IsSpoiled) after merge _ spoiled ?_
  exact fun _ known other listed => known.merge_any (each.2.2 other listed)

end Scope

namespace Stats

/-- The scopes that the whole is made of: those of the colors in the order of their names,
and that of the rasters if there are any. -/
def scopes (colors : ColorPaths) (rasters : List Raster) (runway : Float) : List (Scope Float) :=
  (((ofColors colors).keys.mergeSort fun a b => decide (a ≤ b)).filterMap (ofColors colors).get?) ++
    if rasters.isEmpty then [] else [Scope.ofRasters runway rasters]

/-- The colors together are the scopes under their names in order. -/
theorem wholeOfColors_eq (colors : Stats) :
    wholeOfColors colors = ((colors.keys.mergeSort fun a b => decide (a ≤ b)).filterMap
      colors.get?).foldl Scope.merge .empty := by
  unfold wholeOfColors
  rw [List.foldl_filterMap]
  refine congrArg (fun step => List.foldl step Scope.empty _) ?_
  funext whole color
  cases colors.get? color <;> rfl

/-- What stands under a name: the whole or the rasters where the name is theirs, and the scope
of a color otherwise. -/
theorem get?_compute (colors : ColorPaths) (rasters : List Raster) (runway : Float)
    (name : String) :
    (compute colors rasters runway).get? name =
      if name = wholeName then some ((scopes colors rasters runway).foldl Scope.merge .empty)
      else if name = rastersName ∧ rasters ≠ [] then some (Scope.ofRasters runway rasters)
      else (colors.get? name).map Scope.ofPaths := by
  rw [scopes, List.foldl_append, ← wholeOfColors_eq, ← Keyed.get?_map]
  cases rasters with
  | nil =>
      have computed : compute colors [] runway =
          (ofColors colors).insert wholeName (wholeOfColors (ofColors colors)) := rfl
      rw [computed, Keyed.get?_insert, if_neg fun taken : _ ∧ [] ≠ [] => taken.2 rfl]
      rfl
  | cons raster rest =>
      have computed : compute colors (raster :: rest) runway =
          ((ofColors colors).insert rastersName (Scope.ofRasters runway (raster :: rest))).insert
            wholeName ((wholeOfColors (ofColors colors)).merge
              (Scope.ofRasters runway (raster :: rest))) := rfl
      simp only [computed, Keyed.get?_insert, ne_eq, reduceCtorEq, not_false_eq_true, and_true]
      rfl

/-- The whole is the scopes together. -/
theorem whole?_compute (colors : ColorPaths) (rasters : List Raster) (runway : Float) :
    (compute colors rasters runway).whole? =
      some ((scopes colors rasters runway).foldl Scope.merge .empty) := by
  rw [whole?, get?_compute, if_pos rfl]

/-- There is a scope for each color and one for the rasters. -/
theorem mem_scopes_iff {colors : ColorPaths} {rasters : List Raster} {runway : Float}
    {scope : Scope Float} :
    scope ∈ scopes colors rasters runway ↔
      (∃ entry ∈ colors.entries, scope = Scope.ofPaths entry.2) ∨
        rasters ≠ [] ∧ scope = Scope.ofRasters runway rasters := by
  rw [scopes, List.mem_append, List.mem_filterMap]
  refine or_congr ⟨?_, ?_⟩ ?_
  · rintro ⟨color, -, found⟩
    obtain ⟨entry, inside, same⟩ := List.mem_map.mp (Keyed.mem_of_get? found)
    exact ⟨entry, inside, (Prod.mk.inj same).2.symm⟩
  · rintro ⟨entry, inside, rfl⟩
    have listed : (entry.1, Scope.ofPaths entry.2) ∈ (ofColors colors).entries :=
      List.mem_map_of_mem inside
    exact ⟨entry.1, List.mem_mergeSort.mpr (List.mem_map_of_mem listed), Keyed.get?_of_mem listed⟩
  · cases rasters <;> simp

end Stats

namespace Job

/-- Whether a job has strokes or rasters, and every color of it has a line. -/
structure IsFramed (job : Job) : Prop where
  nonempty : job.colors.entries ≠ [] ∨ job.rasters ≠ []
  lines : ∀ entry ∈ job.colors.entries, HasLine entry.2

/-- Whether the rectangles of all rasters are finite with the runway on either side. -/
def HasFiniteCorners (job : Job) : Prop :=
  ∀ raster ∈ job.rasters, raster.HasFiniteCorners job.settings.rasterOffset

/-- The scopes of a job as it is now. -/
def scopes (job : Job) : List (Scope Float) :=
  Stats.scopes job.colors job.rasters job.settings.rasterOffset

variable {job : Job}

/-- The whole of fresh statistics is the scopes together. -/
theorem whole?_freshStats (job : Job) :
    job.freshStats.whole? = some (job.scopes.foldl Scope.merge .empty) :=
  Stats.whole?_compute ..

/-- The whole of a job is its scopes together, unless it has been given another one. -/
theorem wholeStats_eq (current : job.stats = job.freshStats ∨ job.stats.whole? = none) :
    job.wholeStats = job.scopes.foldl Scope.merge .empty := by
  rw [wholeStats]
  rcases current with same | missing
  · rw [same, whole?_freshStats]
    rfl
  · rw [missing, whole?_freshStats]
    rfl

/-- A scope of a job is finite or that of a color without a line. -/
theorem isFinite_or_empty_of_mem_scopes (paths : job.HasFinitePaths)
    (corners : job.HasFiniteCorners) {scope : Scope Float} (inside : scope ∈ job.scopes) :
    scope.box.IsFinite ∨
      scope = .empty ∧ ∃ entry ∈ job.colors.entries, ¬ HasLine entry.2 := by
  rcases Stats.mem_scopes_iff.mp inside with ⟨entry, listed, rfl⟩ | ⟨nonempty, rfl⟩
  · by_cases line : HasLine entry.2
    · exact .inl (Scope.isFinite_ofPaths (paths entry listed) line)
    · exact .inr ⟨Scope.ofPaths_of_not_hasLine line, entry, listed, line⟩
  · exact .inl (Scope.isFinite_ofRasters corners nonempty)

/-- The box of a framed job is finite. -/
theorem IsFramed.isFinite_foldl_scopes (framed : job.IsFramed) (paths : job.HasFinitePaths)
    (corners : job.HasFiniteCorners) : (job.scopes.foldl Scope.merge .empty).box.IsFinite := by
  refine Scope.isFinite_foldl_merge (fun scope inside => ?_) ?_
  · refine (isFinite_or_empty_of_mem_scopes paths corners inside).resolve_right ?_
    rintro ⟨-, entry, listed, lineless⟩
    exact lineless (framed.lines entry listed)
  · rcases framed.nonempty with colors | rasters
    · obtain ⟨entry, listed⟩ := List.exists_mem_of_ne_nil _ colors
      exact List.ne_nil_of_mem (Stats.mem_scopes_iff.mpr (.inl ⟨entry, listed, rfl⟩))
    · exact List.ne_nil_of_mem (Stats.mem_scopes_iff.mpr (.inr ⟨rasters, rfl⟩))

/-- The box of a job that is not framed is a fresh one or spoiled. -/
theorem foldl_scopes_of_not_isFramed (paths : job.HasFinitePaths) (corners : job.HasFiniteCorners)
    (bare : ¬ job.IsFramed) :
    (job.scopes.foldl Scope.merge .empty).box = .empty ∨
      (job.scopes.foldl Scope.merge .empty).box.IsSpoiled := by
  by_cases empty : job.scopes = []
  · left
    rw [empty]
    rfl
  right
  have nonempty : job.colors.entries ≠ [] ∨ job.rasters ≠ [] := by
    obtain ⟨scope, inside⟩ := List.exists_mem_of_ne_nil _ empty
    rcases Stats.mem_scopes_iff.mp inside with ⟨entry, listed, -⟩ | ⟨rasters, -⟩
    · exact .inl (List.ne_nil_of_mem listed)
    · exact .inr rasters
  obtain ⟨entry, listed, without⟩ : ∃ entry ∈ job.colors.entries, ¬ HasLine entry.2 := by
    by_contra all
    push Not at all
    exact bare ⟨nonempty, all⟩
  refine Scope.isSpoiled_foldl_merge (fun scope inside => ?_)
    ⟨_, Stats.mem_scopes_iff.mpr (.inl ⟨entry, listed, rfl⟩), ?_⟩
  · refine (isFinite_or_empty_of_mem_scopes paths corners inside).imp_right fun lineless => ?_
    rw [lineless.1]
    rfl
  · rw [Scope.ofPaths_of_not_hasLine without]
    rfl

end Job

end LaserCut
