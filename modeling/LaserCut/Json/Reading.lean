/-
# Reading values of a known kind

A document is read straight into the values that it stands for.  A reader
walks the tree of the text in order, so what it reports is the first problem:
a breach of JSON where the tree is broken, or a mismatch where the tree is
whole and the value is not of the expected kind.
-/

import LaserCut.Decimal.Layout
import LaserCut.Json.Parser
import LaserCut.Keyed
import LaserCut.Text.Quoted

namespace LaserCut.Json

/-- A value that was found in the place of another. -/
inductive Found
  | null
  | boolean (value : Bool)
  | integer (value : Int)
  | decimal (value : Float)
  | string (value : String)
  | sequence
  | map
  deriving DecidableEq

/-- A found value in words. -/
def Found.text : Found → String
  | null => "null"
  | boolean value => "boolean `" ++ toString value ++ "`"
  | integer value => "integer `" ++ toString value ++ "`"
  | decimal value =>
      "floating point `" ++ String.ofList (Decimal.exchange.render value) ++ "`"
  | string value => "string " ++ Text.quoted value
  | sequence => "sequence"
  | map => "map"

/-- How a JSON value differs from what is expected. -/
inductive Mismatch
  | missingField (name : String)
  | duplicateField (name : String)
  | invalidLength (found : Nat) (expected : String)
  | invalidType (found : Found) (expected : String)
  | invalidValue (found : Found) (expected : String)
  /-- None of several kinds of value. -/
  | noVariant (name : String)
  /-- A word that is none of the known ones. -/
  | unknownVariant (found : String) (known : List String)
  | notNumeric (found : String)
  | notAscii
  deriving DecidableEq

/-- A mismatch in words. -/
def Mismatch.message : Mismatch → String
  | missingField name => "missing field `" ++ name ++ "`"
  | duplicateField name => "duplicate field `" ++ name ++ "`"
  | invalidLength found expected =>
      "invalid length " ++ toString found ++ ", expected " ++ expected
  | invalidType found expected => "invalid type: " ++ found.text ++ ", expected " ++ expected
  | invalidValue found expected =>
      "invalid value: " ++ found.text ++ ", expected " ++ expected
  | noVariant name => "data did not match any variant of untagged enum " ++ name
  | unknownVariant found known =>
      "unknown variant `" ++ found ++ "`, expected one of " ++
        ", ".intercalate (known.map fun name => "`" ++ name ++ "`")
  | notNumeric found => "expected a number, found " ++ Text.quoted found
  | notAscii => "raster image must be ASCII"

/-- Why a document is refused. -/
inductive Problem
  | breach (breach : Breach)
  | mismatch (mismatch : Mismatch)
  deriving DecidableEq

/-- Reads a value from a node. -/
abbrev Reader (α : Type) :=
  Node → Except Problem α

/-- Refuses a text where it is broken. -/
def breach {α : Type} (breach : Breach) : Except Problem α :=
  .error (.breach breach)

/-- Refuses a value that is not of the expected kind. -/
def mismatch {α : Type} (mismatch : Mismatch) : Except Problem α :=
  .error (.mismatch mismatch)

/-- Carries a check of the text over to a reader. -/
def checked {α : Type} : Except Breach α → Except Problem α
  | .ok value => .ok value
  | .error reason => breach reason

/-- Checks that the fault, if there is one, is not in the closing bracket. -/
def closed : Option Breach → Except Problem Unit
  | none => .ok ()
  | some reason => breach reason

/-- Refuses a node for its kind.  An array or object is refused at its opening
bracket, any other value once it has been read in full. -/
def Node.refuse {α : Type} (expected : String) : Node → Except Problem α
  | .null => mismatch (.invalidType .null expected)
  | .bool value => mismatch (.invalidType (.boolean value) expected)
  | .number (.integer value) => mismatch (.invalidType (.integer value) expected)
  | .number (.decimal value) => mismatch (.invalidType (.decimal value) expected)
  | .number .tooLarge => breach .malformed
  | .string (.ok value) => mismatch (.invalidType (.string value) expected)
  | .string (.error reason) => breach reason
  | .array _ _ => mismatch (.invalidType .sequence expected)
  | .object _ _ => mismatch (.invalidType .map expected)
  | .broken fault => breach fault.read

/-- An integer as the double nearest to it. -/
def floatOfInt (value : Int) : Float :=
  Decimal.signed (value < 0) (Float.ofNat value.natAbs)

/-- A number of any form. -/
def readFloat : Reader Float
  | .number (.integer value) => .ok (floatOfInt value)
  | .number (.decimal value) => .ok value
  | node => node.refuse "f64"

/-- A whole number up to a limit, under the name that messages give it. -/
def readNat (limit : Nat) (name : String) : Reader Nat
  | .number (.integer value) =>
      if 0 ≤ value ∧ value.toNat ≤ limit then .ok value.toNat
      else mismatch (.invalidValue (.integer value) name)
  | node => node.refuse name

/-- A machine word that is made of a whole number below its size. -/
def readWord {α : Type} (size : Nat) (name : String) (ofNat : Nat → α) : Reader α := fun node =>
  (readNat (size - 1) name node).map ofNat

/-- A number of 32 bits. -/
def readWord32 : Reader UInt32 :=
  readWord UInt32.size "u32" UInt32.ofNat

/-- A number of 64 bits. -/
def readWord64 : Reader UInt64 :=
  readWord UInt64.size "usize" UInt64.ofNat

/-- A string. -/
def readString : Reader String
  | .string (.ok value) => .ok value
  | node => node.refuse "a string"

/-- Nothing but `null`. -/
def readUnit : Reader Unit
  | .null => .ok ()
  | node => node.refuse "unit"

/-- A value or `null`. -/
def readOption {α : Type} (read : Reader α) : Reader (Option α)
  | .null => .ok none
  | node => (read node).map some

/-- Items one after the other. -/
def readItems {α : Type} (read : Reader α) : List Node → Except Problem (List α)
  | [] => .ok []
  | item :: rest => do
      let value ← read item
      let values ← readItems read rest
      return value :: values

/-- An array of any length. -/
def readList {α : Type} (read : Reader α) : Reader (List α)
  | .array items ending => do
      let values ← readItems read items
      closed ending
      return values
  | node => node.refuse "a sequence"

/-- An array with a fixed number of items.  Further items are a breach. -/
def readVector {α : Type} (count : Nat) (read : Reader α) : Reader (Vector α count)
  | .array items ending => do
      let values ← readItems read (items.take count)
      if count < items.length then breach .malformed
      else
        closed ending
        if h : values.length = count then return ⟨values.toArray, h⟩
        else mismatch (.invalidLength values.length (expected count))
  | node => node.refuse (expected count)
where
  expected (count : Nat) : String :=
    "an array of length " ++ toString count

/-- Members one after the other. -/
def readMembers {α : Type} (read : Reader α) (keyed : Keyed α) :
    List Member → Except Problem (Keyed α)
  | [] => .ok keyed
  | .keyed key value :: rest => do
      let key ← checked key
      let value ← read value
      readMembers read (keyed.insert key value) rest
  | .keyless fault _ :: _ => breach fault.read

/-- An object whose members are all alike. -/
def readMap {α : Type} (read : Reader α) : Reader (Keyed α)
  | .object members ending => do
      let keyed ← readMembers read .empty members
      closed ending
      return keyed
  | node => node.refuse "a map"

/-- A field of a record that is read into a draft. -/
structure Field (δ : Type) where
  name : String
  /-- Whether the draft has a value for the field. -/
  isSet : δ → Bool
  /-- Reads the field into a draft. -/
  read : Node → δ → Except Problem δ
  /-- Whether the field may be left off the end of a record that is an array. -/
  mayTrail : Bool

/-- A field that is read with a reader of its own and put into its place in the draft. -/
def Field.of {δ α : Type} (name : String) (read : Reader α) (value : δ → Option α)
    (put : α → δ → δ) : Field δ where
  name := name
  isSet draft := (value draft).isSome
  read node draft := (read node).map fun value => put value draft
  mayTrail := false

@[simp]
theorem Field.name_of {δ α : Type} (name : String) (read : Reader α) (value : δ → Option α)
    (put : α → δ → δ) : (Field.of name read value put).name = name :=
  rfl

/-- A field that may be left off the end of an array. -/
def Field.trailing {δ : Type} (field : Field δ) : Field δ :=
  { field with mayTrail := true }

@[simp]
theorem Field.name_trailing {δ : Type} (field : Field δ) : field.trailing.name = field.name :=
  rfl

/-- A kind of record: an object with fixed fields, which may also be an array of
them in their order. -/
structure RecordKind (δ : Type) where
  name : String
  fields : List (Field δ)

namespace RecordKind

variable {δ : Type}

/-- Reads the members of a record.  Members without a field are skipped. -/
def readMembers (kind : RecordKind δ) (draft : δ) : List Member → Except Problem δ
  | [] => .ok draft
  | .keyed key value :: rest => do
      let key ← checked key
      match kind.fields.find? fun field => field.name = key with
      | none =>
          checked value.skip
          readMembers kind draft rest
      | some field =>
          if field.isSet draft then mismatch (.duplicateField field.name)
          else readMembers kind (← field.read value draft) rest
  | .keyless fault _ :: _ => breach fault.read

/-- Reads the items of a record that is an array, and gives back the fields and
items that are left over. -/
def readItems : List (Field δ) → List Node → δ →
    Except Problem (δ × List (Field δ) × List Node)
  | field :: fields, item :: items, draft => do
      readItems fields items (← field.read item draft)
  | fields, items, draft => .ok (draft, fields, items)

/-- What a record that is an array has to be. -/
def expected (kind : RecordKind δ) : String :=
  "struct " ++ kind.name ++ " with " ++ toString kind.fields.length ++ " elements"

/-- Reads a record into a draft. -/
def read (kind : RecordKind δ) (blank : δ) : Reader δ
  | .object members ending => do
      let draft ← kind.readMembers blank members
      closed ending
      return draft
  | .array items ending => do
      let (draft, missing, extra) ← readItems kind.fields items blank
      if !extra.isEmpty then breach .malformed
      else
        if !missing.isEmpty then closed ending
        if missing.any fun field => !field.mayTrail then
          mismatch (.invalidLength items.length kind.expected)
        else
          closed ending
          return draft
  | node => node.refuse ("struct " ++ kind.name)

end RecordKind

/-- The value of a field that every record has. -/
def required {α : Type} (name : String) : Option α → Except Problem α
  | some value => .ok value
  | none => mismatch (.missingField name)

/-- One of several words, as a string or as the only key of an object with the
value `null`. -/
def readWordOf {α : Type} (words : List (String × α)) : Reader α
  | .string (.error reason) => breach reason
  | .string (.ok word) => variant word
  | .object members ending =>
      match members with
      | [] => breach (ending.getD .malformed)
      | .keyless _ instead :: _ => instead.refuse "variant identifier"
      | .keyed key value :: rest => do
          let found ← variant (← checked key)
          readUnit value
          if rest.isEmpty then closed ending else breach .malformed
          return found
  | .broken fault => breach fault.asWord
  | _ => breach .malformed
where
  variant (word : String) : Except Problem α :=
    match words.lookup word with
    | some value => .ok value
    | none => mismatch (.unknownVariant word (words.map Prod.fst))

/-- Reads a whole text; behind the value there may only be white space. -/
def decode {α : Type} (read : Reader α) (text : String) : Except Problem α := do
  let (node, rest) := parse text.toList
  let value ← read node
  if (rest.elim [] skipSpace).isEmpty then return value else breach .malformed

end LaserCut.Json
