/-
# Reading back what was written

A reader gives a value for a written one if it does so for the tree that the
text is parsed as.  This is closed under everything readers are built from, so
a document is read back once its numbers are.
-/

import Mathlib
import LaserCut.Proofs.Json.Parser
import LaserCut.Proofs.Keyed

namespace LaserCut

namespace Json

variable {α β : Type}

/-- A whole number up to the limit is read as itself. -/
theorem readNat_natCast {limit n : Nat} (small : n ≤ limit) (name : String) :
    readNat limit name (.number (.integer n)) = .ok n := by
  rw [readNat, if_pos ⟨Int.natCast_nonneg _, small⟩]
  rfl

/-- A whole number that fits a machine word is read as the word that is made of it. -/
theorem readWord_natCast {size n : Nat} {name : String} {ofNat : Nat → α} {value : α}
    (fits : n < size) (known : ofNat n = value) :
    readWord size name ofNat (.number (.integer n)) = .ok value := by
  rw [readWord, readNat_natCast (Nat.le_sub_one_of_lt fits), Except.map, known]

/-- A reader gives a value for the text of a written one. -/
def ReadsAs (read : Reader α) (json : Json) (value : α) : Prop :=
  ∃ node, Parses json node ∧ read node = .ok value

namespace ReadsAs

/-- A whole text is decoded. -/
theorem decode {read : Reader α} {json : Json} {value : α} (reads : ReadsAs read json value) :
    decode read json.toCompact = .ok value := by
  obtain ⟨node, parses, result⟩ := reads
  apply decode_eq_ok_iff.mpr
  rw [parses.parse_eq]
  exact ⟨result, rfl⟩

/-- What is made of a value can be made of it once it is read. -/
theorem bind {read : Reader α} {json : Json} {value : α} (reads : ReadsAs read json value)
    {next : α → Except Problem β} {result : β} (follows : next value = .ok result) :
    ReadsAs (fun node => read node >>= next) json result := by
  obtain ⟨node, parses, known⟩ := reads
  refine ⟨node, parses, ?_⟩
  simp only [known]
  exact follows

/-- A value can be put into another. -/
theorem map {read : Reader α} {json : Json} {value : α} (reads : ReadsAs read json value)
    (f : α → β) : ReadsAs (fun node => (read node).map f) json (f value) := by
  obtain ⟨node, parses, known⟩ := reads
  exact ⟨node, parses, by simp only [known, Except.map]⟩

/-- A value that is not written as `null` is there. -/
theorem option {read : Reader α} {json : Json} {value : α} (reads : ReadsAs read json value)
    (refuses : ∀ other, read .null ≠ .ok other) :
    ReadsAs (readOption read) json (some value) := by
  obtain ⟨node, parses, known⟩ := reads
  refine ⟨node, parses, ?_⟩
  cases node with
  | null => exact absurd known (refuses value)
  | _ => simp [readOption, known, Except.map]

/-- What is written as `null` is left out. -/
theorem null {json : Json} (text : json.compact = "null".toList) (read : Reader α) :
    ReadsAs (readOption read) json none :=
  ⟨.null, .null text, rfl⟩

/-- A string is read back. -/
theorem string (text : String) : ReadsAs readString (.string text) text :=
  ⟨_, .string text, rfl⟩

/-- The nodes of values that are read, in the order of the values. -/
theorem nodes {read : Reader α} {items : List Json} {values : List α}
    (each : List.Forall₂ (ReadsAs read) items values) :
    ∃ nodes, List.Forall₂ Parses items nodes ∧ readItems read nodes = .ok values := by
  induction each with
  | nil => exact ⟨[], .nil, rfl⟩
  | cons first _ ih =>
      obtain ⟨node, parses, known⟩ := first
      obtain ⟨nodes, others, rest⟩ := ih
      exact ⟨node :: nodes, .cons parses others, by rw [readItems, known, rest]; rfl⟩

/-- Items are read back one by one. -/
theorem list {read : Reader α} {items : List Json} {values : List α}
    (each : List.Forall₂ (ReadsAs read) items values) :
    ReadsAs (readList read) (.array items) values := by
  obtain ⟨nodes, parses, known⟩ := ReadsAs.nodes each
  exact ⟨.array nodes none, .array parses, by rw [readList, known]; rfl⟩

/-- Values that are all written alike are read back one by one. -/
theorem list_map {read : Reader α} {write : α → Json} {values : List α}
    (each : ∀ value ∈ values, ReadsAs read (write value) value) :
    ReadsAs (readList read) (.array (values.map write)) values := by
  apply ReadsAs.list
  rw [List.forall₂_map_left_iff, List.forall₂_same]
  exact each

/-- As many items are read back as are asked for. -/
theorem vector {read : Reader α} {items : List Json} {values : List α} {count : Nat}
    (each : List.Forall₂ (ReadsAs read) items values) (size : values.length = count) :
    ReadsAs (readVector count read) (.array items) ⟨values.toArray, size⟩ := by
  obtain ⟨nodes, parses, known⟩ := ReadsAs.nodes each
  have same : nodes.length = count := by
    rw [← parses.length_eq, each.length_eq, size]
  refine ⟨.array nodes none, .array parses, ?_⟩
  simp [readVector, List.take_of_length_le same.le, known, same, size, closed, Bind.bind,
    Except.bind, pure, Except.pure]

/-- Members with distinct keys are read back in their order, after those that
have been read before. -/
theorem members {read : Reader α} {members : List (String × Json)} {entries : List (String × α)}
    (each : List.Forall₂ (fun member entry => member.1 = entry.1 ∧
      ReadsAs read member.2 entry.2) members entries) (before : Keyed α)
    (distinct : ((before.entries ++ entries).map Prod.fst).Nodup) :
    ∃ nodes result, List.Forall₂ ParsesMember members nodes ∧
      readMembers read before nodes = .ok result ∧
      result.entries = before.entries ++ entries := by
  induction each generalizing before with
  | nil => exact ⟨[], before, .nil, rfl, by simp⟩
  | @cons member entry members entries first _ ih =>
      obtain ⟨same, node, parses, known⟩ := first
      have fresh : entry.1 ∉ before.entries.map Prod.fst := by
        intro inside
        rw [List.map_append, List.nodup_append] at distinct
        exact distinct.2.2 entry.1 inside entry.1 (by simp) rfl
      have placed : (before.insert entry.1 entry.2).entries = before.entries ++ [entry] :=
        Keyed.place_of_notMem fresh
      obtain ⟨nodes, result, others, rest, whole⟩ := ih (before.insert entry.1 entry.2) (by
        rw [placed, List.append_assoc]
        exact distinct)
      refine ⟨.keyed (.ok member.1) node :: nodes, result, .cons (.keyed member.1 parses) others,
        ?_, by rw [whole, placed, List.append_assoc]; rfl⟩
      rw [readMembers, same, known]
      exact rest

/-- An object with distinct keys is read back as its entries. -/
theorem keyed {read : Reader α} {members : List (String × Json)} {value : Keyed α}
    (each : List.Forall₂ (fun member entry => member.1 = entry.1 ∧
      ReadsAs read member.2 entry.2) members value.entries) :
    ReadsAs (readMap read) (.object members) value := by
  obtain ⟨nodes, result, parses, known, whole⟩ := ReadsAs.members each .empty value.distinct
  refine ⟨.object nodes none, .object parses, ?_⟩
  rw [readMap, known, Keyed.eq_of_entries (whole : result.entries = value.entries)]
  rfl

/-- A number that is decoded on its own is read the same wherever it stands. -/
theorem of_decode {read : Reader α} {json : Json} {value : α}
    (refuses : ∀ fault other, read (.broken fault) ≠ .ok other)
    (numeric : ∀ c ∈ json.compact, Decimal.IsNumeric c)
    (decoded : Json.decode read json.toCompact = .ok value) : ReadsAs read json value := by
  obtain ⟨numeral, parses, known⟩ := Parses.of_decode refuses numeric decoded
  exact ⟨.number numeral, parses, known⟩

/-- A whole number that fits is read back. -/
theorem word32 (value : UInt32) : ReadsAs readWord32 (.integer value.toNat) value := by
  have fits : value.toNat ≤ maxSignificand :=
    (Nat.le_sub_one_of_lt value.toNat_lt_size).trans (by decide)
  exact ⟨_, .number (scanNumber_renderInteger fits),
    readWord_natCast value.toNat_lt_size value.ofNat_toNat⟩

end ReadsAs

variable {δ : Type}

/-- A member is read into a draft by its field. -/
theorem RecordKind.readMembers_keyed {kind : RecordKind δ} {draft next : δ} {key : String}
    {node : Node} {field : Field δ}
    (found : kind.fields.find? (fun field => field.name = key) = some field)
    (unset : field.isSet draft = false) (known : field.read node draft = .ok next)
    (rest : List Member) :
    kind.readMembers draft (.keyed (.ok key) node :: rest) = kind.readMembers next rest := by
  simp only [RecordKind.readMembers, checked, found, unset, known, Bind.bind, Except.bind]
  rfl

/-- The members of an object are read into a draft one after the other, each by
a field that the draft has no value for. -/
inductive ReadsFields (kind : RecordKind δ) : δ → List (String × Json) → δ → Prop
  | nil (draft : δ) : ReadsFields kind draft [] draft
  | cons {draft next final : δ} {key : String} {json : Json} {field : Field δ}
      {members : List (String × Json)}
      (found : kind.fields.find? (fun field => field.name = key) = some field)
      (unset : field.isSet draft = false)
      (reads : ReadsAs (fun node => field.read node draft) json next)
      (others : ReadsFields kind next members final) :
      ReadsFields kind draft ((key, json) :: members) final

/-- More members are read after the first ones. -/
theorem ReadsFields.append {kind : RecordKind δ} {blank draft final : δ}
    {members others : List (String × Json)} (first : ReadsFields kind blank members draft)
    (second : ReadsFields kind draft others final) :
    ReadsFields kind blank (members ++ others) final := by
  induction first with
  | nil => exact second
  | cons found unset reads _ ih => exact .cons found unset reads (ih second)

/-- A record is read back once its fields are. -/
theorem ReadsFields.reads {kind : RecordKind δ} {blank draft : δ}
    {members : List (String × Json)} (fields : ReadsFields kind blank members draft) :
    ReadsAs (kind.read blank) (.object members) draft := by
  have read : ∃ nodes, List.Forall₂ ParsesMember members nodes ∧
      kind.readMembers blank nodes = .ok draft := by
    induction fields with
    | nil draft => exact ⟨[], .nil, rfl⟩
    | @cons draft next final key json field members found unset reads _ ih =>
        obtain ⟨node, parses, known⟩ := reads
        obtain ⟨nodes, others, rest⟩ := ih
        refine ⟨.keyed (.ok key) node :: nodes, .cons (.keyed key parses) others, ?_⟩
        rw [RecordKind.readMembers_keyed found unset known, rest]
  obtain ⟨nodes, parses, known⟩ := read
  exact ⟨.object nodes none, .object parses, by rw [RecordKind.read, known]; rfl⟩

end Json

end LaserCut
