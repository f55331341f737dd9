/-
# The passes that lasertags describe

Rows are applied one after the other to a list of passes that grows on demand.
What comes out can be told without this list: there are as many passes as the
greatest place that a row describes, and a pass depends on no rows but those that
describe its place.  Of these, the last one that gives a value decides it, and
the colors of all of them follow each other.
-/

import Mathlib
import LaserCut.Lasertag
import LaserCut.Proofs.Decimal.Exact

namespace LaserCut

/-- The place that a field names: a whole number from one on, which stops at the
greatest count. -/
theorem TagValue.passNumber?_eq_some_iff {field : TagValue} {place : Nat} :
    field.passNumber? = some place ↔
      ∃ value, field = .number value ∧ ∃ n : Nat, Decimal.rational? value = some (n : ℚ) ∧
        1 ≤ n ∧ place = min n Decimal.maxCount := by
  unfold TagValue.passNumber?
  cases field with
  | text value => simp [number?]
  | number value =>
      have natural {n : Nat} : Decimal.whole? value = some (n : Int) ↔
          Decimal.rational? value = some (n : ℚ) := by
        rw [Decimal.whole?_eq_some_iff, Int.cast_natCast]
      simp only [number?, Option.bind_some, number.injEq, exists_eq_left', ← natural]
      cases whole : Decimal.whole? value with
      | none => simp
      | some n =>
          cases n with
          | ofNat n => simp [and_comm, eq_comm]
          | negSucc n => simp

namespace Lasertag

/-- A row describes the pass at a place, counted from one: it has eleven fields,
and the first one names the place. -/
structure Describes (row : List TagValue) (place : Nat) : Prop where
  arity : row.length = 11
  first : ∃ value, row.head? = some (.number value) ∧
    ∃ n : Nat, Decimal.rational? value = some (n : ℚ) ∧ 1 ≤ n ∧ place = min n Decimal.maxCount

/-- The number that a row gives in a column, counted from zero; a zero gives
none. -/
def given? (column : Nat) (row : List TagValue) : Option Float :=
  match row[column]? with
  | some (.number value) => if value == 0 then none else some value
  | _ => none

/-- The colors that a row names: the texts with a hash in front among the fields
behind the first five. -/
def namedColors (row : List TagValue) : List String :=
  (row.drop 5).filterMap fun
    | .text text => if ['#'] <+: text.toList then some text else none
    | .number _ => none

/-- A row that is a lasertag describes its pass and says about it what its fields
give. -/
structure Reads (row : List TagValue) (tag : Lasertag) : Prop where
  describes : Describes row tag.passNumber
  feedrate : tag.feedrate = given? 1 row
  intensity : tag.intensity = given? 3 row
  colors : tag.colors = namedColors row

/-- What a column gives is the setting in its field. -/
theorem given?_eq (column : Nat) (row : List TagValue) :
    given? column row = row[column]?.bind TagValue.setting? := by
  unfold given?
  cases row[column]? with
  | none => rfl
  | some field =>
      cases field with
      | text value => rfl
      | number value => cases zero : value == 0 <;> 
        simp [TagValue.setting?, TagValue.number?, bne, Option.filter, zero]

/-- The colors that a row names are those in its fields. -/
theorem namedColors_eq (row : List TagValue) :
    namedColors row = (row.drop 5).filterMap TagValue.color? := by
  unfold namedColors
  congr 1
  funext field
  cases field with
  | number value => rfl
  | text value =>
      have first : ['#'] <+: value.toList ↔ value.toList.head? = some '#' := by
        cases value.toList <;> simp [eq_comm]
      simp [TagValue.color?, TagValue.text?, Option.filter, first]

/-- A row of eleven fields, one by one. -/
theorem exists_fields {row : List TagValue} (arity : row.length = 11) :
    ∃ number feedrate unit intensity unit' c₁ c₂ c₃ c₄ c₅ c₆,
      row = [number, feedrate, unit, intensity, unit', c₁, c₂, c₃, c₄, c₅, c₆] := by
  match row, arity with
  | [number, feedrate, unit, intensity, unit', c₁, c₂, c₃, c₄, c₅, c₆], _ =>
      exact ⟨number, feedrate, unit, intensity, unit', c₁, c₂, c₃, c₄, c₅, c₆, rfl⟩

/-- The report about a row that describes no pass: the number of its fields comes
first. -/
def faultOf (row : List TagValue) : LasertagFault :=
  if row.length = 11 then .passNumber (row.head?.elim "" TagValue.shown) else .arity row.length

/-- A row is read as a lasertag if it describes a pass, and refused otherwise. -/
theorem ofRow_spec (row : List TagValue) :
    (∃ tag, ofRow row = .ok tag ∧ Reads row tag) ∨
      ofRow row = .error (faultOf row) ∧ ∀ place, ¬ Describes row place := by
  by_cases arity : row.length = 11
  · obtain ⟨number, feedrate, unit, intensity, unit', c₁, c₂, c₃, c₄, c₅, c₆, rfl⟩ :=
      exists_fields arity
    cases named : number.passNumber? with
    | some place =>
        obtain ⟨value, rfl, known⟩ := TagValue.passNumber?_eq_some_iff.mp named
        refine .inl ⟨⟨place, feedrate.setting?, intensity.setting?,
          [c₁, c₂, c₃, c₄, c₅, c₆].filterMap TagValue.color?⟩, by simp only [ofRow, named], ?_⟩
        exact ⟨⟨arity, value, rfl, known⟩, by rw [given?_eq]; rfl, by rw [given?_eq]; rfl,
          by rw [namedColors_eq]; rfl⟩
    | none =>
        refine .inr ⟨by simp only [ofRow, named, faultOf, arity]; rfl, fun place describes => ?_⟩
        obtain ⟨value, first, known⟩ := describes.first
        have other := TagValue.passNumber?_eq_some_iff.mpr
          ⟨value, Option.some.inj first, known⟩
        rw [named] at other
        cases other
  · refine .inr ⟨?_, fun place describes => arity describes.arity⟩
    rw [faultOf, if_neg arity]
    unfold ofRow
    split
    · exact absurd rfl arity
    · rfl

/-- A row describes one pass only. -/
theorem Describes.unique {row : List TagValue} {place other : Nat} (first : Describes row place)
    (second : Describes row other) : place = other := by
  obtain ⟨value, head, n, known, -, rfl⟩ := first.first
  obtain ⟨value', head', n', known', -, rfl⟩ := second.first
  obtain rfl : value = value' := by
    rw [head, Option.some_inj, TagValue.number.injEq] at head'
    exact head'
  rw [known, Option.some_inj, Nat.cast_inj] at known'
  rw [known']

/-- A lasertag describes the pass at its place. -/
theorem Reads.describes_iff {row : List TagValue} {tag : Lasertag} (reads : Reads row tag)
    (place : Nat) : Describes row place ↔ tag.passNumber = place :=
  ⟨fun describes => reads.describes.unique describes, fun same => same ▸ reads.describes⟩

/-- Places count from one. -/
theorem Reads.one_le {row : List TagValue} {tag : Lasertag} (reads : Reads row tag) :
    1 ≤ tag.passNumber := by
  obtain ⟨value, -, n, -, positive, place⟩ := reads.describes.first
  rw [place]
  exact le_min positive (by decide)

/-- Whether a row describes a pass at all. -/
def IsLasertag (row : List TagValue) : Prop :=
  ∃ place, Describes row place

/-- The place that a row describes is found by reading it. -/
theorem describes_iff (row : List TagValue) (place : Nat) :
    (ofRow row).toOption.map passNumber = some place ↔ Describes row place := by
  rcases ofRow_spec row with ⟨tag, read, reads⟩ | ⟨refused, other⟩
  · rw [read, reads.describes_iff]
    exact Option.some_inj
  · rw [refused]
    exact iff_of_false nofun (other place)

instance (row : List TagValue) (place : Nat) : Decidable (Describes row place) :=
  decidable_of_iff _ (describes_iff row place)

theorem isLasertag_iff (row : List TagValue) :
    (ofRow row).toOption.isSome = true ↔ IsLasertag row := by
  rcases ofRow_spec row with ⟨tag, read, reads⟩ | ⟨refused, other⟩
  · rw [read]
    exact iff_of_true rfl ⟨_, reads.describes⟩
  · rw [refused]
    exact iff_of_false nofun fun ⟨place, describes⟩ => other place describes

instance (row : List TagValue) : Decidable (IsLasertag row) :=
  decidable_of_iff _ (isLasertag_iff row)

/-- The lasertags among rows. -/
def tagsOf (rows : List (List TagValue)) : List Lasertag :=
  rows.filterMap fun row => (ofRow row).toOption

/-- A row that describes no pass is no lasertag. -/
theorem tagsOf_cons_of_not {row : List TagValue} (bad : ¬ IsLasertag row)
    (rows : List (List TagValue)) : tagsOf (row :: rows) = tagsOf rows := by
  rcases ofRow_spec row with ⟨tag, read, reads⟩ | ⟨refused, other⟩
  · exact absurd ⟨_, reads.describes⟩ bad
  · rw [tagsOf, List.filterMap_cons, refused]
    rfl

/-- A row that describes a pass is a lasertag about it. -/
theorem exists_tagsOf_cons {row : List TagValue} {place : Nat} (good : Describes row place) :
    ∃ tag, tag.passNumber = place ∧ Reads row tag ∧
      ∀ rows, tagsOf (row :: rows) = tag :: tagsOf rows := by
  rcases ofRow_spec row with ⟨tag, read, reads⟩ | ⟨refused, other⟩
  · refine ⟨tag, (reads.describes_iff place).mp good, reads, fun rows => ?_⟩
    rw [tagsOf, List.filterMap_cons, read]
    rfl
  · exact absurd good (other place)

/-- Lasertags about one place say what the rows about it say. -/
theorem map_tagsOf {β : Type} {f : Lasertag → β} {g : List TagValue → β}
    (agree : ∀ row tag, Reads row tag → f tag = g row) (rows : List (List TagValue))
    (place : Nat) :
    ((tagsOf rows).filter fun tag => tag.passNumber = place).map f =
      (rows.filter fun row => Describes row place).map g := by
  induction rows with
  | nil => rfl
  | cons row rows ih =>
      by_cases good : IsLasertag row
      · obtain ⟨described, describes⟩ := good
        obtain ⟨tag, rfl, reads, step⟩ := exists_tagsOf_cons describes
        have about := reads.describes_iff place
        by_cases here : tag.passNumber = place
        · rw [step, List.filter_cons_of_pos (by simpa using here),
            List.filter_cons_of_pos (by simpa using about.mpr here), List.map_cons, List.map_cons,
            ih, agree row tag reads]
        · rw [step, List.filter_cons_of_neg (by simpa using here),
            List.filter_cons_of_neg (by simpa using mt about.mp here), ih]
      · have other : ¬ Describes row place := fun describes => good ⟨place, describes⟩
        rw [tagsOf_cons_of_not good, List.filter_cons_of_neg (by simpa using other), ih]

/-- Lasertags count their places from one. -/
theorem one_le_of_mem_tagsOf {rows : List (List TagValue)} {tag : Lasertag}
    (inside : tag ∈ tagsOf rows) : 1 ≤ tag.passNumber := by
  obtain ⟨row, -, read⟩ := List.mem_filterMap.mp inside
  rcases ofRow_spec row with ⟨other, known, reads⟩ | ⟨refused, -⟩
  · rw [known] at read
    obtain rfl : other = tag := Option.some.inj read
    exact reads.one_le
  · rw [refused] at read
    cases read

/-- Places of lasertags are places that rows describe. -/
theorem exists_mem_tagsOf {rows : List (List TagValue)} {place : Nat} :
    (∃ tag ∈ tagsOf rows, tag.passNumber = place) ↔ ∃ row ∈ rows, Describes row place := by
  simp only [tagsOf, List.mem_filterMap, ← describes_iff, Option.map_eq_some_iff]
  constructor
  · rintro ⟨tag, ⟨row, listed, read⟩, number⟩
    exact ⟨row, listed, tag, read, number⟩
  · rintro ⟨row, listed, tag, read, number⟩
    exact ⟨tag, ⟨row, listed, read⟩, number⟩

/-- The pass in a list at an index; beyond the end it is the one about which
nothing is said. -/
def passAt (passes : List Pass) (k : Nat) : Pass :=
  passes[k]?.getD Pass.default

/-- Lists of one length with the same passes are the same. -/
theorem eq_of_passAt {passes other : List Pass} (length : passes.length = other.length)
    (same : ∀ k, passAt passes k = passAt other k) : passes = other := by
  refine List.ext_getElem length fun k inside inside' => ?_
  have value := same k
  rwa [passAt, passAt, List.getElem?_eq_getElem inside, List.getElem?_eq_getElem inside'] at value

/-- A list grows to hold the pass of a lasertag. -/
theorem length_apply (tag : Lasertag) (passes : List Pass) :
    (tag.apply passes).length = max passes.length tag.passNumber := by
  rw [apply, List.length_modify, List.length_append, List.length_replicate]
  omega

/-- A lasertag changes its pass and no other one. -/
theorem passAt_apply {tag : Lasertag} (counted : 1 ≤ tag.passNumber) (passes : List Pass)
    (k : Nat) :
    passAt (tag.apply passes) k =
      if tag.passNumber = k + 1 then tag.describe (passAt passes k) else passAt passes k := by
  have grown : passAt (passes ++ List.replicate (tag.passNumber - passes.length) Pass.default) k =
      passAt passes k := by
    rw [passAt, passAt, List.getElem?_append]
    split_ifs with inside
    · rfl
    · rw [List.getElem?_replicate, List.getElem?_eq_none (by omega)]
      split_ifs <;> rfl
  rw [← grown]
  unfold apply
  dsimp only
  generalize bounded : passes ++ List.replicate (tag.passNumber - passes.length) Pass.default = all
  have long : tag.passNumber ≤ all.length := by
    rw [← bounded, List.length_append, List.length_replicate]
    omega
  rw [passAt, List.getElem?_modify, passAt]
  by_cases here : tag.passNumber = k + 1
  · rw [if_pos here, List.getElem?_eq_getElem (by omega)]
    simp [here]
  · have apart : tag.passNumber - 1 ≠ k := by omega
    simp [here, apart]

/-- Lasertags about different passes can be applied in either order. -/
theorem apply_comm {first second : Lasertag} (counted : 1 ≤ first.passNumber)
    (counted' : 1 ≤ second.passNumber) (apart : first.passNumber ≠ second.passNumber)
    (passes : List Pass) :
    second.apply (first.apply passes) = first.apply (second.apply passes) := by
  apply eq_of_passAt
  · simp only [length_apply]
    omega
  · intro k
    simp only [passAt_apply counted, passAt_apply counted']
    split_ifs
    · omega
    all_goals rfl

/-- The rows that are no lasertags are passed over. -/
theorem passesOfRows_eq_foldl (rows : List (List TagValue)) :
    passesOfRows rows = (tagsOf rows).foldl (fun passes tag => tag.apply passes) [] := by
  rw [passesOfRows, tagsOf, List.foldl_filterMap]
  congr 1
  funext passes row
  cases ofRow row <;> rfl

/-- The list grows to the greatest place. -/
theorem isGreatest_length (tags : List Lasertag) (passes : List Pass) :
    IsGreatest (insert passes.length {place | ∃ tag ∈ tags, tag.passNumber = place})
      (tags.foldl (fun passes tag => tag.apply passes) passes).length := by
  induction tags generalizing passes with
  | nil => simp [IsGreatest, upperBounds]
  | cons tag tags ih =>
      obtain ⟨member, bound⟩ := ih (tag.apply passes)
      rw [List.foldl_cons]
      generalize (tags.foldl (fun passes tag => tag.apply passes) (tag.apply passes)).length =
        length at member bound ⊢
      rw [length_apply] at member bound
      have least : max passes.length tag.passNumber ≤ length := bound (Set.mem_insert _ _)
      refine ⟨?_, ?_⟩
      · rcases member with same | ⟨other, listed, same⟩
        · rcases le_total passes.length tag.passNumber with grows | stays
          · exact .inr ⟨tag, List.mem_cons_self, by rw [same, max_eq_right grows]⟩
          · exact .inl (by rw [same, max_eq_left stays])
        · exact .inr ⟨other, List.mem_cons_of_mem _ listed, same⟩
      · rintro place (rfl | ⟨other, listed, rfl⟩)
        · exact (le_max_left _ _).trans least
        · rcases List.mem_cons.mp listed with rfl | later
          · exact (le_max_right _ _).trans least
          · exact bound (.inr ⟨other, later, rfl⟩)

/-- A pass depends on the lasertags about it alone. -/
theorem passAt_foldl {tags : List Lasertag} (counted : ∀ tag ∈ tags, 1 ≤ tag.passNumber)
    (passes : List Pass) (k : Nat) :
    passAt (tags.foldl (fun passes tag => tag.apply passes) passes) k =
      (tags.filter fun tag => tag.passNumber = k + 1).foldl (fun pass tag => tag.describe pass)
        (passAt passes k) := by
  induction tags generalizing passes with
  | nil => rfl
  | cons tag tags ih =>
      obtain ⟨first, others⟩ := List.forall_mem_cons.mp counted
      rw [List.foldl_cons, ih others, passAt_apply first]
      by_cases here : tag.passNumber = k + 1
      · rw [if_pos here, List.filter_cons_of_pos (by simpa using here), List.foldl_cons]
      · rw [if_neg here, List.filter_cons_of_neg (by simpa using here)]

/-- Of several lasertags about a pass the last one that gives a value decides it,
and their colors follow each other. -/
theorem foldl_describe (tags : List Lasertag) (pass : Pass) :
    tags.foldl (fun pass tag => tag.describe pass) pass =
      ⟨pass.colors ++ (tags.map Lasertag.colors).flatten,
        ((tags.map Lasertag.feedrate).filterMap id).getLast?.getD pass.feedrate,
        ((tags.map Lasertag.intensity).filterMap id).getLast?.getD pass.intensity⟩ := by
  have last (value : Option Float) (values : List (Option Float)) (start : Float) :
      (values.filterMap id).getLast?.getD (value.getD start) =
        ((value :: values).filterMap id).getLast?.getD start := by
    cases value with
    | none => rfl
    | some value => simp [List.getLast?_cons]
  induction tags generalizing pass with
  | nil => simp
  | cons tag tags ih =>
      rw [List.foldl_cons, ih, describe]
      simp only [List.map_cons, List.flatten_cons, List.append_assoc, last]

/-- A list of passes is what rows describe: it is as long as the greatest place
that a row describes, and each pass has the last values that rows about it give,
or the default ones, and the colors that they name, in the order of the rows. -/
structure AreDescribed (passes : List Pass) (rows : List (List TagValue)) : Prop where
  length : IsGreatest (insert 0 {place | ∃ row ∈ rows, Describes row place}) passes.length
  feedrate : ∀ k pass, passes[k]? = some pass → pass.feedrate =
    ((rows.filter fun row => Describes row (k + 1)).filterMap (given? 1)).getLast?.getD 1200
  intensity : ∀ k pass, passes[k]? = some pass → pass.intensity =
    ((rows.filter fun row => Describes row (k + 1)).filterMap (given? 3)).getLast?.getD 10
  colors : ∀ k pass, passes[k]? = some pass → pass.colors =
    (rows.filter fun row => Describes row (k + 1)).flatMap namedColors

/-- The passes of rows are the ones that they describe. -/
theorem areDescribed_passesOfRows (rows : List (List TagValue)) :
    AreDescribed (passesOfRows rows) rows := by
  have value {k : Nat} {pass : Pass} (found : (passesOfRows rows)[k]? = some pass) :
      pass = ⟨(((rows.filter fun row => Describes row (k + 1)).map namedColors).flatten),
        (((rows.filter fun row => Describes row (k + 1)).map (given? 1)).filterMap id).getLast?.getD
          1200,
        (((rows.filter fun row => Describes row (k + 1)).map (given? 3)).filterMap id).getLast?.getD
          10⟩ := by
    have known : passAt (passesOfRows rows) k = pass := by rw [passAt, found, Option.getD_some]
    rw [passesOfRows_eq_foldl, passAt_foldl fun tag => one_le_of_mem_tagsOf, foldl_describe,
      map_tagsOf fun row tag reads => reads.colors, map_tagsOf fun row tag reads => reads.feedrate,
      map_tagsOf fun row tag reads => reads.intensity] at known
    exact known.symm
  constructor
  · have greatest := isGreatest_length (tagsOf rows) []
    simp only [exists_mem_tagsOf] at greatest
    rw [passesOfRows_eq_foldl]
    exact greatest
  · intro k pass found
    rw [value found, List.filterMap_map, Function.id_comp]
  · intro k pass found
    rw [value found]
    dsimp only
    rw [List.filterMap_map, Function.id_comp]
  · intro k pass found
    rw [value found, List.flatMap_def]

/-- The rows that are skipped are those that describe no pass, and each of them
has its report. -/
theorem faultsOfRows_eq (rows : List (List TagValue)) :
    faultsOfRows rows = (rows.filter fun row => ¬ IsLasertag row).map faultOf := by
  induction rows with
  | nil => rfl
  | cons row rows ih =>
      rw [faultsOfRows] at ih ⊢
      rcases ofRow_spec row with ⟨tag, read, reads⟩ | ⟨refused, other⟩
      · have good : IsLasertag row := ⟨_, reads.describes⟩
        rw [List.filterMap_cons, read, List.filter_cons_of_neg (by simpa using good)]
        exact ih
      · have bad : ¬ IsLasertag row := fun ⟨place, describes⟩ => other place describes
        rw [List.filterMap_cons, refused, List.filter_cons_of_pos (by simpa using bad),
          List.map_cons, ← ih]

/-- Lasertags of rows that follow each other follow each other. -/
theorem tagsOf_append (rows more : List (List TagValue)) :
    tagsOf (rows ++ more) = tagsOf rows ++ tagsOf more :=
  List.filterMap_append

/-- A row that describes no pass changes nothing. -/
theorem passesOfRows_of_not {row : List TagValue} (bad : ¬ IsLasertag row)
    (before after : List (List TagValue)) :
    passesOfRows (before ++ row :: after) = passesOfRows (before ++ after) := by
  rw [passesOfRows_eq_foldl, passesOfRows_eq_foldl, tagsOf_append, tagsOf_cons_of_not bad,
    ← tagsOf_append]

/-- Rows about different passes can change places. -/
theorem passesOfRows_swap {first second : List TagValue} {place other : Nat}
    (describes : Describes first place) (describes' : Describes second other)
    (apart : place ≠ other) (before after : List (List TagValue)) :
    passesOfRows (before ++ second :: first :: after) =
      passesOfRows (before ++ first :: second :: after) := by
  obtain ⟨tag, rfl, reads, step⟩ := exists_tagsOf_cons describes
  obtain ⟨tag', rfl, reads', step'⟩ := exists_tagsOf_cons describes'
  simp only [passesOfRows_eq_foldl, tagsOf_append, step, step', List.foldl_append, List.foldl_cons]
  rw [apply_comm reads.one_le reads'.one_le apart]

/-- The passes of rows are those that the rows describe, and every other row has
one report, in the order of the rows.  Such a row changes no pass, and neither
does the order of two neighbours that describe different passes. -/
theorem passesOfRows_closedForm (rows : List (List TagValue)) :
    AreDescribed (passesOfRows rows) rows ∧
      faultsOfRows rows = (rows.filter fun row => ¬ IsLasertag row).map faultOf ∧
      (∀ before row after, rows = before ++ row :: after → ¬ IsLasertag row →
        passesOfRows rows = passesOfRows (before ++ after)) ∧
      (∀ before first second after place other, rows = before ++ first :: second :: after →
        Describes first place → Describes second other → place ≠ other →
        passesOfRows (before ++ second :: first :: after) = passesOfRows rows) := by
  refine ⟨areDescribed_passesOfRows rows, faultsOfRows_eq rows, ?_, ?_⟩
  · rintro before row after rfl bad
    exact passesOfRows_of_not bad before after
  · rintro before first second after place other rfl describes describes' apart
    exact passesOfRows_swap describes describes' apart before after

/-- Rows of which two describe the second pass, one the first pass, and two none
at all. -/
def sampleRows : List (List TagValue) :=
  [[.number 2, .number 1500, .text "mm/min", .number 0, .text "%", .text "#ff0000", .text "",
      .number 7, .text "red", .text "#ff0000", .text ""],
    [.number 1.5, .number 9, .text "", .number 9, .text "", .text "#0000ff", .text "", .text "",
      .text "", .text "", .text ""],
    [.number 2, .number 0, .text "", .number 35, .text "", .text "#00ff00", .text "", .text "",
      .text "", .text "", .text ""],
    [.number 1, .text "900", .text "", .number 20, .text "", .text "", .text "", .text "",
      .text "", .text "", .text "#000000"],
    [.number 1]]

/-- The sample rows describe two passes.  The row without a place can be left out,
and the two after it can change places. -/
theorem passesOfRows_sample :
    passesOfRows sampleRows =
        [⟨["#000000"], 1200, 20⟩, ⟨["#ff0000", "#ff0000", "#00ff00"], 1500, 35⟩] ∧
      AreDescribed (passesOfRows sampleRows) sampleRows ∧
      (sampleRows.filter fun row => ¬ IsLasertag row).map faultOf =
        [.passNumber "1.5", .arity 1] ∧
      faultsOfRows sampleRows = (sampleRows.filter fun row => ¬ IsLasertag row).map faultOf ∧
      ¬ IsLasertag sampleRows[1] ∧
      passesOfRows sampleRows = passesOfRows (sampleRows.take 1 ++ sampleRows.drop 2) ∧
      Describes sampleRows[2] 2 ∧ Describes sampleRows[3] 1 ∧
      passesOfRows (sampleRows.take 2 ++ sampleRows[3] :: sampleRows[2] :: sampleRows.drop 4) =
        passesOfRows sampleRows := by
  obtain ⟨described, faults, skipped, swapped⟩ := passesOfRows_closedForm sampleRows
  have bad : ¬ IsLasertag sampleRows[1] := by decide +kernel
  have second : Describes sampleRows[2] 2 := by decide +kernel
  have first : Describes sampleRows[3] 1 := by decide +kernel
  exact ⟨by decide +kernel, described, by decide +kernel, faults, bad,
    skipped (sampleRows.take 1) sampleRows[1] (sampleRows.drop 2) rfl bad, second, first,
    swapped (sampleRows.take 2) sampleRows[2] sampleRows[3] (sampleRows.drop 4) 2 1 rfl second first
      (by decide)⟩

end Lasertag

end LaserCut
