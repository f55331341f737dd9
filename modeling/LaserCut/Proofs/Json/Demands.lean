/-
# What readers ask of a tree

A reader takes no tree that lacks what it asks for.  What a reader of lists or of
records asks of the whole is what the readers of the parts ask of the parts, so one
part that is not taken is enough for the whole to be refused, whatever else stands
around it.
-/

import Mathlib
import LaserCut.Proofs.Json.Results

namespace LaserCut

open Attempt

namespace Json

variable {α β δ : Type}

/-- Whether a value is an item of an array. -/
inductive Node.HasItem : Node → Node → Prop
  | listed {items : List Node} {item : Node} (inside : item ∈ items) (ending : Option Breach) :
      HasItem (.array items ending) item

/-- Whether a value is that of a field of a record.  It stands under the name of the
field, or in the place of the field if the record is an array. -/
inductive Node.HasField (kind : RecordKind δ) (name : String) : Node → Node → Prop
  | keyed {members : List Member} {value : Node} (inside : .keyed (.ok name) value ∈ members)
      (ending : Option Breach) : HasField kind name (.object members ending) value
  | placed {items : List Node} {value : Node} {place : Nat}
      (field : kind.fields[place]?.map Field.name = some name) (item : items[place]? = some value)
      (ending : Option Breach) : HasField kind name (.array items ending) value

/-- Whether a reader takes only what has a property. -/
def Demands (read : Reader α) (p : Node → Prop) : Prop :=
  ∀ ⦃node value⦄, read node = .ok value → p node

namespace Demands

variable {read : Reader α} {p : Node → Prop}

/-- More can be asked of a value once it is read. -/
theorem bind (demands : Demands read p) (next : α → Except Problem β) :
    Demands (fun node => read node >>= next) p := by
  intro node result taken
  obtain ⟨value, known, -⟩ := bind_eq_ok_iff.mp taken
  exact demands known

/-- What is made of a value does not change what is asked for. -/
theorem map (demands : Demands read p) (f : α → β) : Demands (fun node => (read node).map f) p := by
  intro node result taken
  obtain ⟨value, known, -⟩ := map_eq_ok_iff.mp taken
  exact demands known

/-- A value that may be left out can also be `null`. -/
theorem option (demands : Demands read p) (null : p .null) : Demands (readOption read) p := by
  intro node result taken
  cases node with
  | null => exact null
  | _ =>
      obtain ⟨value, known, -⟩ := map_eq_ok_iff.mp taken
      exact demands known

/-- Items one after the other. -/
theorem items (demands : Demands read p) {nodes : List Node} {values : List α}
    (taken : readItems read nodes = .ok values) : ∀ node ∈ nodes, p node := by
  induction nodes generalizing values with
  | nil => exact List.forall_mem_nil _
  | cons node nodes ih =>
      obtain ⟨value, first, behind⟩ := bind_eq_ok_iff.mp taken
      obtain ⟨others, rest, -⟩ := bind_eq_ok_iff.mp behind
      exact List.forall_mem_cons.mpr ⟨demands first, ih rest⟩

/-- A list asks of every item what the reader of items asks for. -/
theorem list (demands : Demands read p) :
    Demands (readList read) fun node => ∀ item, node.HasItem item → p item := by
  intro node values taken item inside
  cases inside with
  | listed inside ending =>
      obtain ⟨values, known, -⟩ := bind_eq_ok_iff.mp taken
      exact demands.items known item inside

end Demands

namespace RecordKind

variable {kind : RecordKind δ} {name : String} {p : Node → Prop}

/-- Whether a kind of record has a field of a name, and whatever has this name takes
only values with a property. -/
structure Asks (kind : RecordKind δ) (name : String) (p : Node → Prop) : Prop where
  known : ∃ field ∈ kind.fields, field.name = name
  demands : ∀ field ∈ kind.fields, field.name = name → ∀ draft,
    Demands (fun node => field.read node draft) p

namespace Asks

/-- A member that has the name of a field is read by it. -/
theorem members (asks : kind.Asks name p) {members : List Member} {draft result : δ}
    (taken : kind.readMembers draft members = .ok result) {value : Node}
    (inside : .keyed (.ok name) value ∈ members) : p value := by
  induction members generalizing draft with
  | nil => cases inside
  | cons member rest ih =>
      cases member with
      | keyless fault instead => cases taken
      | keyed key other =>
          obtain ⟨word, read, behind⟩ := bind_eq_ok_iff.mp taken
          split at behind
          · next unknown =>
              obtain ⟨-, -, more⟩ := bind_eq_ok_iff.mp behind
              rcases List.mem_cons.mp inside with same | later
              · -- the member would be skipped, but the kind has a field of its name
                obtain ⟨rfl, rfl⟩ := Member.keyed.inj same
                cases read
                obtain ⟨field, listed, named⟩ := asks.known
                exact absurd (decide_eq_true named) (List.find?_eq_none.mp unknown field listed)
              · exact ih more later
          · next field found =>
              split_ifs at behind with again
              · cases behind
              · obtain ⟨next, stored, more⟩ := bind_eq_ok_iff.mp behind
                rcases List.mem_cons.mp inside with same | later
                · obtain ⟨rfl, rfl⟩ := Member.keyed.inj same
                  cases read
                  have named : field.name = name := by simpa using List.find?_some found
                  exact asks.demands field (List.mem_of_find?_eq_some found) named draft stored
                · exact ih more later

/-- An item in the place of a field is read by it. -/
theorem items {fields : List (Field δ)}
    (demands : ∀ field ∈ fields, field.name = name → ∀ draft,
      Demands (fun node => field.read node draft) p)
    {items : List Node} {draft : δ} {result : δ × List (Field δ) × List Node}
    (taken : readItems fields items draft = .ok result) {place : Nat} {value : Node}
    (field : fields[place]?.map Field.name = some name) (item : items[place]? = some value) :
    p value := by
  induction fields generalizing items draft place with
  | nil => cases field
  | cons first fields ih =>
      cases items with
      | nil => cases item
      | cons other items =>
          obtain ⟨next, stored, more⟩ := bind_eq_ok_iff.mp taken
          obtain ⟨this, those⟩ := List.forall_mem_cons.mp demands
          cases place with
          | zero =>
              cases item
              exact this (Option.some.inj field) draft stored
          | succ place => exact ih those more field item

/-- A record asks of the value of each field what the field asks for. -/
theorem read (asks : kind.Asks name p) (blank : δ) :
    Demands (kind.read blank) fun record => ∀ value, record.HasField kind name value → p value := by
  intro record draft taken value found
  cases found with
  | keyed inside ending =>
      obtain ⟨draft, known, -⟩ := bind_eq_ok_iff.mp taken
      exact asks.members known inside
  | placed field item ending =>
      obtain ⟨result, known, -⟩ := bind_eq_ok_iff.mp taken
      exact items asks.demands known field item

end Asks

end RecordKind

end Json

end LaserCut
