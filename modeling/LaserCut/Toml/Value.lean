/-
# TOML values and how tables come about

A table may be opened by a header, named on the way to a deeper header, named
by a dotted key, or written inline.  How it came about decides what may still
be added to it: a table is opened at most once, dotted keys add only to tables
that dotted keys made, and an inline table is closed from the start.
-/

namespace LaserCut.Toml

/-- How a table came about. -/
inductive Origin
  | header
  /-- Named on the way to a deeper header. -/
  | implied
  | dotted
  | inline
  deriving DecidableEq

/-- A TOML value. -/
inductive Value
  | string (text : String)
  | integer (value : Int)
  | decimal (value : Float)
  | boolean (value : Bool)
  /-- A date, a time or both. -/
  | moment
  | array (items : List Value)
  | table (origin : Origin) (members : List (String × Value))
  /-- Tables that share a name, the last one first. -/
  | tables (items : List (List (String × Value)))

/-- The members of a table. -/
abbrev Members :=
  List (String × Value)

/-- A table with its origin. -/
abbrev Table :=
  Origin × Members

/-- Gives a key a value, in its place or at the end. -/
def place (key : String) (value : Value) : Members → Members
  | [] => [(key, value)]
  | member :: rest =>
      if member.1 = key then (key, value) :: rest else member :: place key value rest

/-- Changes the table at the end of a path and makes the tables on the way that
are not there.  The path is that of a header or of a dotted key. -/
def change (dotted : Bool) (f : Table → Option Members) :
    List String → Table → Option Members
  | [], table => f table
  | key :: path, (_, members) =>
      match members.lookup key with
      | none =>
          let origin := if dotted then Origin.dotted else .implied
          (change dotted f path (origin, [])).map fun child =>
            place key (.table origin child) members
      | some (.table origin child) =>
          if origin = .inline ∨ dotted ∧ origin = .header then none
          else
            (change dotted f path (origin, child)).map fun child =>
              place key (.table origin child) members
      | some (.tables (last :: before)) =>
          (change dotted f path (.header, last)).map fun last =>
            place key (.tables (last :: before)) members
      | some _ => none

/-- Adds a member under a dotted key: the path in front of its last part leads
to a table that dotted keys made, and the last part is new there. -/
def define (path : List String) (key : String) (value : Value) (table : Table) :
    Option Members :=
  change true (fun (origin, members) =>
    if decide (origin = .dotted) == path.isEmpty then none
    else if (members.lookup key).isSome then none
    else some (place key value members)) path table

/-- Opens a table: it is new, or was only named on the way to deeper ones. -/
def openTable (path : List String) (key : String) (root : Members) : Option Members :=
  change false (fun (_, members) =>
    match members.lookup key with
    | none => some (place key (.table .header []) members)
    | some (.table .implied child) => some (place key (.table .header child) members)
    | some _ => none) path (.header, root)

/-- Opens one more of the tables that share a name. -/
def openItem (path : List String) (key : String) (root : Members) : Option Members :=
  change false (fun (_, members) =>
    match members.lookup key with
    | none => some (place key (.tables [[]]) members)
    | some (.tables items) => some (place key (.tables ([] :: items)) members)
    | some _ => none) path (.header, root)

end LaserCut.Toml
