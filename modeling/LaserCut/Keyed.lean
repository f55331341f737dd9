/-
# Entries under keys, in the order of their first arrival

Colors keep the order in which a design names them, and so do the scopes of
its statistics.  A key that comes again keeps its place and takes the new
value.
-/

namespace LaserCut

/-- Entries under distinct keys. -/
structure Keyed (α : Type) where
  entries : List (String × α)
  distinct : (entries.map Prod.fst).Nodup

namespace Keyed

variable {α β : Type}

/-- No entries. -/
def empty : Keyed α :=
  ⟨[], List.nodup_nil⟩

instance : Inhabited (Keyed α) :=
  ⟨empty⟩

/-- The keys in their order. -/
def keys (keyed : Keyed α) : List String :=
  keyed.entries.map Prod.fst

/-- The values in the order of their keys. -/
def values (keyed : Keyed α) : List α :=
  keyed.entries.map Prod.snd

/-- The value under a key. -/
def get? (keyed : Keyed α) (key : String) : Option α :=
  keyed.entries.lookup key

/-- Whether there is no entry. -/
def isEmpty (keyed : Keyed α) : Bool :=
  keyed.entries.isEmpty

/-- Gives a key a value in a list of entries: in the place of the key if it is
there, and at the end otherwise. -/
def place (key : String) (value : α) : List (String × α) → List (String × α)
  | [] => [(key, value)]
  | entry :: rest =>
      if entry.1 = key then (key, value) :: rest else entry :: place key value rest

/-- Placing a value adds at most the key itself. -/
theorem mem_keys_place {key other : String} {value : α} {entries : List (String × α)} :
    other ∈ (place key value entries).map Prod.fst ↔
      other = key ∨ other ∈ entries.map Prod.fst := by
  induction entries with
  | nil => simp [place]
  | cons entry rest ih =>
    by_cases h : entry.1 = key
    · simp [place, h]
    · simp only [place, if_neg h, List.map_cons, List.mem_cons, ih]
      grind

/-- Placing a value keeps the keys distinct. -/
theorem nodup_keys_place {key : String} {value : α} {entries : List (String × α)}
    (h : (entries.map Prod.fst).Nodup) : ((place key value entries).map Prod.fst).Nodup := by
  induction entries with
  | nil => simp [place]
  | cons entry rest ih =>
    simp only [List.map_cons, List.nodup_cons] at h
    by_cases hk : entry.1 = key
    · simp only [place, if_pos hk, List.map_cons, List.nodup_cons]
      exact ⟨hk ▸ h.1, h.2⟩
    · simp only [place, if_neg hk, List.map_cons, List.nodup_cons, mem_keys_place, not_or]
      exact ⟨⟨hk, h.1⟩, ih h.2⟩

/-- Gives a key a value. -/
def insert (keyed : Keyed α) (key : String) (value : α) : Keyed α :=
  ⟨place key value keyed.entries, nodup_keys_place keyed.distinct⟩

/-- The entries of a list, a later value under a key winning. -/
def ofList (entries : List (String × α)) : Keyed α :=
  entries.foldl (fun keyed entry => keyed.insert entry.1 entry.2) empty

/-- Changes every value and keeps the keys. -/
def map (f : α → β) (keyed : Keyed α) : Keyed β where
  entries := keyed.entries.map fun entry => (entry.1, f entry.2)
  distinct := by simpa [List.map_map, Function.comp_def] using keyed.distinct

/-- The entries whose keys are kept. -/
def filterKeys (keep : String → Bool) (keyed : Keyed α) : Keyed α where
  entries := keyed.entries.filter fun entry => keep entry.1
  distinct := keyed.distinct.sublist (List.filter_sublist.map Prod.fst)

end Keyed

end LaserCut
