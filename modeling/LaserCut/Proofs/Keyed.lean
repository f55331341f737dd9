/-
# Finding entries

What is found under a key depends on the entries only.  Keys are distinct, so the order in
which entries arrived does not matter, and neither do the names of the keys as long as
different keys stay different.
-/

import Mathlib
import LaserCut.Keyed

namespace LaserCut.Keyed

variable {α : Type} {keyed other : Keyed α} {key : String} {value : α}

/-- Entries decide everything. -/
theorem eq_of_entries (same : keyed.entries = other.entries) : keyed = other := by
  cases keyed
  cases other
  cases same
  rfl

/-- A value that is found stands in an entry under its key. -/
theorem mem_of_get? (found : keyed.get? key = some value) : (key, value) ∈ keyed.entries := by
  obtain ⟨before, after, split, -⟩ := List.lookup_eq_some_iff.mp found
  rw [split]
  simp

/-- A value that stands in an entry is found under its key. -/
theorem get?_of_mem (inside : (key, value) ∈ keyed.entries) : keyed.get? key = some value := by
  obtain ⟨before, after, split⟩ := List.append_of_mem inside
  refine List.lookup_eq_some_iff.mpr ⟨before, after, split, fun entry earlier => ?_⟩
  have distinct := keyed.distinct
  rw [split, List.map_append, List.nodup_append] at distinct
  have other := distinct.2.2 entry.1 (List.mem_map_of_mem earlier) key (by simp)
  simpa using other.symm

/-- What is found are the entries. -/
theorem get?_eq_some_iff : keyed.get? key = some value ↔ (key, value) ∈ keyed.entries :=
  ⟨mem_of_get?, get?_of_mem⟩

/-- Entries in another order are found alike. -/
theorem get?_of_perm (perm : keyed.entries.Perm other.entries) (key : String) :
    keyed.get? key = other.get? key := by
  apply Option.ext
  intro value
  rw [get?_eq_some_iff, get?_eq_some_iff, perm.mem_iff]

/-- Under a renamed key stands what stood under the key, unless an entry of another key has
come to share its name. -/
theorem get?_renamed {rename : String → String}
    (entries : other.entries = keyed.entries.map fun entry => (rename entry.1, entry.2))
    (apart : ∀ entry ∈ keyed.entries, rename entry.1 = rename key → entry.1 = key) :
    other.get? (rename key) = keyed.get? key := by
  apply Option.ext
  intro value
  rw [get?_eq_some_iff, get?_eq_some_iff, entries, List.mem_map]
  constructor
  · rintro ⟨entry, inside, same⟩
    obtain ⟨name, rfl⟩ := Prod.mk.inj same
    exact apart entry inside name ▸ inside
  · exact fun inside => ⟨(key, value), inside, rfl⟩

/-- Values that are changed are found under their keys. -/
theorem get?_map {β : Type} (f : α → β) (keyed : Keyed α) (key : String) :
    (keyed.map f).get? key = (keyed.get? key).map f := by
  change (keyed.entries.map fun entry => (entry.1, f entry.2)).lookup key = _
  rw [get?]
  induction keyed.entries with
  | nil => rfl
  | cons entry rest ih =>
      rw [List.map_cons, List.lookup_cons, List.lookup_cons, ih]
      cases key == entry.1 <;> rfl

/-- An entry that is there once a value has been placed is that value under its key, or
was there before. -/
theorem mem_place {entries : List (String × α)} {entry : String × α}
    (inside : entry ∈ place key value entries) : entry = (key, value) ∨ entry ∈ entries := by
  induction entries with
  | nil => exact .inl (List.mem_singleton.mp inside)
  | cons first rest ih =>
      rw [place] at inside
      split_ifs at inside with same
      · exact (List.mem_cons.mp inside).imp_right (List.mem_cons_of_mem _)
      · rcases List.mem_cons.mp inside with rfl | behind
        · exact .inr List.mem_cons_self
        · exact (ih behind).imp_right (List.mem_cons_of_mem _)

/-- A new key is placed at the end. -/
theorem place_of_notMem {entries : List (String × α)} (fresh : key ∉ entries.map Prod.fst) :
    place key value entries = entries ++ [(key, value)] := by
  induction entries with
  | nil => rfl
  | cons entry rest ih =>
      rw [List.map_cons, List.mem_cons, not_or] at fresh
      rw [place, if_neg fun same => fresh.1 same.symm, ih fresh.2, List.cons_append]

/-- A key that was just given a value has it, and the others have theirs. -/
theorem get?_insert (keyed : Keyed α) (key : String) (value : α) (name : String) :
    (keyed.insert key value).get? name = if name = key then some value else keyed.get? name := by
  change (place key value keyed.entries).lookup name = _
  rw [get?]
  induction keyed.entries with
  | nil => by_cases same : name = key <;> simp [place, List.lookup_cons, same, beq_false_of_ne]
  | cons entry rest ih =>
      rw [place]
      by_cases here : entry.1 = key
      · rw [if_pos here, List.lookup_cons, List.lookup_cons, here]
        by_cases same : name = key <;> simp [same, beq_false_of_ne]
      · rw [if_neg here, List.lookup_cons, List.lookup_cons, ih]
        by_cases same : name = entry.1
        · simp [same, here]
        · simp [same, beq_false_of_ne]

/-- A key that was just given a value has it. -/
theorem get?_insert_self (keyed : Keyed α) (key : String) (value : α) :
    (keyed.insert key value).get? key = some value := by
  rw [get?_insert, if_pos rfl]

end LaserCut.Keyed
