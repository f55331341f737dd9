/-
# What readers make of finite numbers

A reader yields a property if every value that it makes of a tree with finite numbers
has it.  This is closed under everything readers are built from, so what is known of
the numbers of a document follows from what is known of each of its numbers.
-/

import Mathlib
import LaserCut.Json.Reading
import LaserCut.Proofs.Attempt
import LaserCut.Proofs.Json.Finite
import LaserCut.Proofs.Json.Parser
import LaserCut.Proofs.Keyed

namespace LaserCut

namespace Json

open Attempt Decimal

variable {α β δ : Type}

/-- A node that is refused gives nothing. -/
theorem Node.refuse_ne_ok {expected : String} {node : Node} {value : α} :
    node.refuse expected ≠ .ok value := by
  intro taken
  cases node with
  | number numeral => cases numeral <;> cases taken
  | string content => cases content <;> cases taken
  | _ => cases taken

/-- A reader makes only values with a property of trees with finite numbers. -/
def Yields (read : Reader α) (p : α → Prop) : Prop :=
  ∀ ⦃node value⦄, node.IsFinite → read node = .ok value → p value

/-- Any number that is read is finite. -/
theorem yields_readFloat : Yields readFloat fun value => value.isFinite := by
  intro node value finite taken
  unfold readFloat at taken
  split at taken
  · cases finite with
    | number known =>
        rw [← Except.ok.inj taken]
        exact isFinite_signed (isFinite_ofNat (known.trans (by decide))) _
  · cases finite with
    | number known => exact Except.ok.inj taken ▸ known
  · exact absurd taken Node.refuse_ne_ok

namespace Yields

variable {read : Reader α} {p : α → Prop}

/-- Nothing is asked of a value that is not looked at. -/
theorem trivial : Yields read fun _ => True :=
  fun _ _ _ _ => True.intro

/-- A value of any kind can be put into another one. -/
theorem map (yields : Yields read p) {f : α → β} {q : β → Prop}
    (implies : ∀ value, p value → q (f value)) : Yields (fun node => (read node).map f) q := by
  intro node value finite taken
  obtain ⟨part, known, rfl⟩ := map_eq_ok_iff.mp taken
  exact implies part (yields finite known)

/-- A value that is looked at before something is made of it. -/
theorem bind (yields : Yields read p) {next : α → Except Problem β} {q : β → Prop}
    (implies : ∀ value result, p value → next value = .ok result → q result) :
    Yields (fun node => read node >>= next) q := by
  intro node result finite taken
  obtain ⟨value, known, rest⟩ := bind_eq_ok_iff.mp taken
  exact implies value result (yields finite known) rest

/-- A value that may be left out. -/
theorem option (yields : Yields read p) :
    Yields (readOption read) fun value => ∀ part, value = some part → p part := by
  intro node value finite taken part known
  subst known
  unfold readOption at taken
  split at taken
  · cases taken
  · obtain ⟨_, known, same⟩ := map_eq_ok_iff.mp taken
    rw [← Option.some.inj same]
    exact yields finite known

/-- Items one after the other. -/
theorem items (yields : Yields read p) {nodes : List Node} {values : List α}
    (finite : ∀ node ∈ nodes, node.IsFinite) (taken : readItems read nodes = .ok values) :
    ∀ value ∈ values, p value := by
  induction nodes generalizing values with
  | nil =>
      cases taken
      exact List.forall_mem_nil p
  | cons node rest ih =>
      obtain ⟨first, others⟩ := List.forall_mem_cons.mp finite
      obtain ⟨value, known, behind⟩ := bind_eq_ok_iff.mp taken
      obtain ⟨values, more, whole⟩ := bind_eq_ok_iff.mp behind
      cases whole
      exact List.forall_mem_cons.mpr ⟨yields first known, ih others more⟩

/-- A list of any length. -/
theorem list (yields : Yields read p) :
    Yields (readList read) fun values => ∀ value ∈ values, p value := by
  intro node values finite taken
  unfold readList at taken
  split at taken
  · obtain ⟨values, known, rest⟩ := bind_eq_ok_iff.mp taken
    obtain ⟨-, -, whole⟩ := bind_eq_ok_iff.mp rest
    cases whole
    cases finite with
    | array each => exact yields.items each known
  · exact absurd taken Node.refuse_ne_ok

/-- A list of a fixed length. -/
theorem vector (yields : Yields read p) (count : Nat) :
    Yields (readVector count read) fun values => ∀ value ∈ values, p value := by
  intro node values finite taken
  unfold readVector at taken
  split at taken
  · next nodes ending =>
      have each : ∀ node ∈ nodes.take count, node.IsFinite := by
        cases finite with
        | array each => exact fun node inside => each node (List.mem_of_mem_take inside)
      obtain ⟨items, known, rest⟩ := bind_eq_ok_iff.mp taken
      split_ifs at rest with extra size
      · cases rest
      · obtain ⟨-, -, whole⟩ := bind_eq_ok_iff.mp rest
        cases whole
        intro value inside
        exact yields.items each known value (by simpa using inside)
      · obtain ⟨-, -, whole⟩ := bind_eq_ok_iff.mp rest
        cases whole
  · exact absurd taken Node.refuse_ne_ok

/-- Members one after the other, added to entries that have been read before. -/
theorem members (yields : Yields read p) {members : List Member} {before result : Keyed α}
    (finite : ∀ member ∈ members, member.IsFinite) (holds : ∀ entry ∈ before.entries, p entry.2)
    (taken : readMembers read before members = .ok result) : ∀ entry ∈ result.entries, p entry.2 := by
  induction members generalizing before with
  | nil =>
      cases taken
      exact holds
  | cons member rest ih =>
      obtain ⟨first, others⟩ := List.forall_mem_cons.mp finite
      cases first with
      | keyed key known =>
          obtain ⟨key, -, behind⟩ := bind_eq_ok_iff.mp taken
          obtain ⟨value, read, more⟩ := bind_eq_ok_iff.mp behind
          refine ih others (fun entry inside => ?_) more
          rcases Keyed.mem_place inside with rfl | old
          · exact yields known read
          · exact holds entry old
      | keyless fault instead => cases taken

/-- An object whose members are all alike. -/
theorem keyed (yields : Yields read p) :
    Yields (readMap read) fun result => ∀ entry ∈ result.entries, p entry.2 := by
  intro node result finite taken
  unfold readMap at taken
  split at taken
  · obtain ⟨keyed, known, rest⟩ := bind_eq_ok_iff.mp taken
    obtain ⟨-, -, whole⟩ := bind_eq_ok_iff.mp rest
    cases whole
    cases finite with
    | object each => exact yields.members each (List.forall_mem_nil _) known
  · exact absurd taken Node.refuse_ne_ok

end Yields

/-- Whether every field keeps a property of the drafts that it is read into. -/
def RecordKind.Keeps (kind : RecordKind δ) (p : δ → Prop) : Prop :=
  ∀ field ∈ kind.fields, ∀ draft, p draft → Yields (fun node => field.read node draft) p

namespace RecordKind.Keeps

variable {kind : RecordKind δ} {p : δ → Prop}

/-- Members of a record one after the other. -/
theorem members (keeps : kind.Keeps p) {members : List Member} {draft result : δ}
    (finite : ∀ member ∈ members, member.IsFinite) (holds : p draft)
    (taken : kind.readMembers draft members = .ok result) : p result := by
  induction members generalizing draft with
  | nil =>
      cases taken
      exact holds
  | cons member rest ih =>
      obtain ⟨first, others⟩ := List.forall_mem_cons.mp finite
      cases first with
      | keyed key known =>
          obtain ⟨key, -, behind⟩ := bind_eq_ok_iff.mp taken
          split at behind
          · obtain ⟨-, -, more⟩ := bind_eq_ok_iff.mp behind
            exact ih others holds more
          · next field found =>
              split_ifs at behind with again
              · cases behind
              · obtain ⟨next, read, more⟩ := bind_eq_ok_iff.mp behind
                exact ih others (keeps field (List.mem_of_find?_eq_some found) draft holds known read)
                  more
      | keyless fault instead => cases taken

/-- Items of a record that is an array. -/
theorem items {fields : List (Field δ)}
    (keeps : ∀ field ∈ fields, ∀ draft, p draft → Yields (fun node => field.read node draft) p)
    {items : List Node} {draft : δ} {result : δ × List (Field δ) × List Node}
    (finite : ∀ item ∈ items, item.IsFinite) (holds : p draft)
    (taken : readItems fields items draft = .ok result) : p result.1 := by
  induction fields generalizing items draft with
  | nil =>
      cases taken
      exact holds
  | cons field fields ih =>
      cases items with
      | nil =>
          cases taken
          exact holds
      | cons item items =>
          obtain ⟨first, others⟩ := List.forall_mem_cons.mp finite
          obtain ⟨next, read, more⟩ := bind_eq_ok_iff.mp taken
          obtain ⟨this, those⟩ := List.forall_mem_cons.mp keeps
          exact ih those others (this draft holds first read) more

/-- A whole record. -/
theorem yields (keeps : kind.Keeps p) {blank : δ} (holds : p blank) : Yields (kind.read blank) p := by
  intro node result finite taken
  unfold RecordKind.read at taken
  split at taken
  · obtain ⟨draft, known, rest⟩ := bind_eq_ok_iff.mp taken
    obtain ⟨-, -, whole⟩ := bind_eq_ok_iff.mp rest
    cases whole
    cases finite with
    | object each => exact keeps.members each holds known
  · obtain ⟨⟨draft, missing, extra⟩, known, rest⟩ := bind_eq_ok_iff.mp taken
    have kept : p draft := by
      cases finite with
      | array each => exact items keeps each holds known
    dsimp only at rest
    split_ifs at rest with beyond short needed needed
    · cases rest
    · obtain ⟨-, -, refused⟩ := bind_eq_ok_iff.mp rest
      cases refused
    · obtain ⟨-, -, again⟩ := bind_eq_ok_iff.mp rest
      obtain ⟨-, -, whole⟩ := bind_eq_ok_iff.mp again
      cases whole
      exact kept
    · cases rest
    · obtain ⟨-, -, whole⟩ := bind_eq_ok_iff.mp rest
      cases whole
      exact kept
  · exact absurd taken Node.refuse_ne_ok

end RecordKind.Keeps

/-- Whatever is decoded from a text has the property that its reader yields. -/
theorem Yields.decode {read : Reader α} {p : α → Prop} (yields : Yields read p) {text : String}
    {value : α} (taken : decode read text = .ok value) : p value := by
  obtain ⟨known, -⟩ := decode_eq_ok_iff.mp taken
  exact yields (isFinite_parse text.toList) known

end Json

end LaserCut
