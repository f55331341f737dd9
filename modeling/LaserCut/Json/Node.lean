/-
# JSON texts as they are read

A text is read as a tree that ends where the text goes wrong: every part of
the tree in front of the fault is there, and the fault stands in the place of
what should have followed.  A document with several problems is refused for
the first one in the order of its text, whether that is a breach of JSON or a
value of the wrong kind; walking the tree in order finds it.
-/

namespace LaserCut.Json

/-- How a text fails to be JSON. -/
inductive Breach
  /-- The text stopped inside a value. -/
  | ended
  | malformed
  deriving DecidableEq

/-- A fault in the text.  A value that is read is held to more rules than one
that is only skipped, and where one of several words is expected nothing but a
string or an object is looked at; so the three may fail at different places. -/
structure Fault where
  read : Breach
  skipped : Breach
  asWord : Breach
  deriving DecidableEq

/-- A fault that is the same however the value is used. -/
def Fault.of (breach : Breach) : Fault :=
  ⟨breach, breach, breach⟩

/-- A number as JSON has it. -/
inductive Numeral
  /-- A number without point and exponent that fits a machine word. -/
  | integer (value : Int)
  | decimal (value : Float)
  /-- A number that no double can hold. -/
  | tooLarge
  deriving DecidableEq

mutual

/-- A value of a text, up to the first fault in it. -/
inductive Node
  | null
  | bool (value : Bool)
  | number (value : Numeral)
  /-- A string; its content may break a rule that holds only when it is read. -/
  | string (content : Except Breach String)
  /-- Items and the fault, if there is one, in place of the closing bracket. -/
  | array (items : List Node) (ending : Option Breach)
  | object (members : List Member) (ending : Option Breach)
  | broken (fault : Fault)

/-- A member of an object. -/
inductive Member
  | keyed (key : Except Breach String) (value : Node)
  /-- Something else stands where a key should. -/
  | keyless (fault : Fault) (instead : Node)

end

mutual

/-- Checks a value that is skipped. -/
def Node.skip : Node → Except Breach Unit
  | .null => .ok ()
  | .bool _ => .ok ()
  | .number _ => .ok ()
  | .string _ => .ok ()
  | .array items ending =>
      match skipItems items, ending with
      | .error breach, _ => .error breach
      | .ok (), some breach => .error breach
      | .ok (), none => .ok ()
  | .object members ending =>
      match skipMembers members, ending with
      | .error breach, _ => .error breach
      | .ok (), some breach => .error breach
      | .ok (), none => .ok ()
  | .broken fault => .error fault.skipped

/-- Checks items that are skipped. -/
def skipItems : List Node → Except Breach Unit
  | [] => .ok ()
  | item :: rest =>
      match item.skip with
      | .error breach => .error breach
      | .ok () => skipItems rest

/-- Checks members that are skipped. -/
def skipMembers : List Member → Except Breach Unit
  | [] => .ok ()
  | .keyed _ value :: rest =>
      match value.skip with
      | .error breach => .error breach
      | .ok () => skipMembers rest
  | .keyless fault _ :: _ => .error fault.skipped

end

mutual

/-- Checks a value that is read in full before its kind is looked at.  Arrays
and objects may be nested no deeper than `room`. -/
def Node.readThrough (room : Nat) : Node → Except Breach Unit
  | .null => .ok ()
  | .bool _ => .ok ()
  | .number .tooLarge => .error .malformed
  | .number _ => .ok ()
  | .string (.error breach) => .error breach
  | .string (.ok _) => .ok ()
  | .array items ending =>
      if room = 0 then .error .malformed
      else
        match readThroughItems (room - 1) items, ending with
        | .error breach, _ => .error breach
        | .ok (), some breach => .error breach
        | .ok (), none => .ok ()
  | .object members ending =>
      if room = 0 then .error .malformed
      else
        match readThroughMembers (room - 1) members, ending with
        | .error breach, _ => .error breach
        | .ok (), some breach => .error breach
        | .ok (), none => .ok ()
  | .broken fault => .error fault.read

/-- Checks items that are read in full. -/
def readThroughItems (room : Nat) : List Node → Except Breach Unit
  | [] => .ok ()
  | item :: rest =>
      match item.readThrough room with
      | .error breach => .error breach
      | .ok () => readThroughItems room rest

/-- Checks members that are read in full, keys included. -/
def readThroughMembers (room : Nat) : List Member → Except Breach Unit
  | [] => .ok ()
  | .keyed (.error breach) _ :: _ => .error breach
  | .keyed (.ok _) value :: rest =>
      match value.readThrough room with
      | .error breach => .error breach
      | .ok () => readThroughMembers room rest
  | .keyless fault _ :: _ => .error fault.read

end

/-- The deepest nesting of a value that is read. -/
def maxDepth : Nat :=
  127

end LaserCut.Json
