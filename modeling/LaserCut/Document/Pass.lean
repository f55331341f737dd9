/-
# Passes, lasertag fields and messages in documents

The values of a pass may be numbers or texts of numbers, and a field of a
lasertag may be a number or any text.  Such a value is read in full before its
kind is looked at.
-/

import LaserCut.Decimal.Reader
import LaserCut.Decimal.Rounding
import LaserCut.Json.Reading
import LaserCut.Json.Value
import LaserCut.Lasertag
import LaserCut.Text.Blank

namespace LaserCut

open Json (Field Node Problem Reader RecordKind)

/-- The first whole number that is written with a point, because doubles of its
size are no longer sure to be exact. -/
def firstPointedWhole : Nat :=
  9000000000000000

/-- A value of a pass: whole numbers have no fraction. -/
def passNumberJson (value : Float) : Json :=
  match Decimal.whole? value with
  | some n => if n.natAbs < firstPointedWhole then .integer n else .decimal value
  | none => .decimal value

/-- Reads a number or text inside `depth` arrays and objects; `name` stands for
the two kinds together. -/
def readNumberOrText {α : Type} (name : String) (depth : Nat)
    (ofNumber : Float → Except Problem α) (ofText : String → Except Problem α) :
    Reader α := fun node => do
  Json.checked (node.readThrough (Json.maxDepth - depth))
  match node with
  | .number (.integer value) => ofNumber (Json.floatOfInt value)
  | .number (.decimal value) => ofNumber value
  | .string (.ok text) => ofText text
  | _ => Json.mismatch (.noVariant name)

/-- Reads a value of a pass. -/
def readPassNumber (depth : Nat) : Reader Float :=
  readNumberOrText "NumberOrString" depth .ok fun text =>
    match Decimal.read? (Text.trim text.toList) with
    | some value => .ok value
    | none => Json.mismatch (.notNumeric text)

/-- A pass that is being read. -/
structure PassDraft where
  colors : Option (List String)
  feedrate : Option Float
  intensity : Option Float

/-- The fields of a pass that is inside `depth` arrays and objects, its own
included. -/
def passKind (depth : Nat) : RecordKind PassDraft where
  name := "Pass"
  fields :=
    [Field.of "colors" (Json.readList Json.readString) PassDraft.colors
        fun colors draft => { draft with colors := some colors },
      Field.of "feedrate" (readPassNumber depth) PassDraft.feedrate
        fun value draft => { draft with feedrate := some value },
      Field.of "intensity" (readPassNumber depth) PassDraft.intensity
        fun value draft => { draft with intensity := some value }]

namespace Pass

/-- A pass as a document has it. -/
def toJson (pass : Pass) : Json :=
  .object
    [("colors", .array (pass.colors.map .string)),
      ("feedrate", passNumberJson pass.feedrate),
      ("intensity", passNumberJson pass.intensity)]

/-- Reads a pass that is inside `outer` arrays and objects. -/
def read (outer : Nat) : Reader Pass := fun node => do
  let draft ← (passKind (outer + 1)).read ⟨none, none, none⟩ node
  let colors ← Json.required "colors" draft.colors
  let feedrate ← Json.required "feedrate" draft.feedrate
  let intensity ← Json.required "intensity" draft.intensity
  return ⟨colors, feedrate, intensity⟩

end Pass

namespace TagValue

/-- A lasertag field as a document has it. -/
def toJson : TagValue → Json
  | .number value => .decimal value
  | .text value => .string value

/-- Reads a lasertag field inside `depth` arrays. -/
def read (depth : Nat) : Reader TagValue :=
  readNumberOrText "TagField" depth (fun value => .ok (.number value))
    (fun value => .ok (.text value))

/-- Reads rows of lasertag fields. -/
def readRows : Reader (List (List TagValue)) :=
  Json.readList (Json.readList (read 2))

end TagValue

/-- A message that is being read. -/
structure MessageDraft where
  level : Option Level
  text : Option String

/-- The fields of a message. -/
def messageKind : RecordKind MessageDraft where
  name := "Message"
  fields :=
    [Field.of "level" (Json.readWordOf (Level.all.map fun level => (level.name, level)))
        MessageDraft.level fun level draft => { draft with level := some level },
      Field.of "text" Json.readString MessageDraft.text
        fun text draft => { draft with text := some text }]

namespace Message

/-- A message as a document has it. -/
def toJson (message : Message) : Json :=
  .object [("level", .string message.level.name), ("text", .string message.text)]

/-- Reads a message. -/
def read : Reader Message := fun node => do
  let draft ← messageKind.read ⟨none, none⟩ node
  let level ← Json.required "level" draft.level
  let text ← Json.required "text" draft.text
  return ⟨level, text⟩

end Message

end LaserCut
