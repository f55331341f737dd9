/-
# JSON values and their two written forms

Documents are written without any white space, and files for people with one
member to a line.  A number that JSON cannot express is written as `null`.
-/

import LaserCut.Decimal.Layout
import LaserCut.Text.Hex

namespace LaserCut

/-- A JSON value that is to be written.  Members keep their order. -/
inductive Json
  | null
  | integer (value : Int)
  | decimal (value : Float)
  | string (value : String)
  | array (items : List Json)
  | object (members : List (String × Json))

namespace Json

/-- A character inside a string. -/
def escapeChar (c : Char) : List Char :=
  if c = '"' then ['\\', '"']
  else if c = '\\' then ['\\', '\\']
  else if c = '\n' then ['\\', 'n']
  else if c = '\r' then ['\\', 'r']
  else if c = '\t' then ['\\', 't']
  else if c.toNat = 8 then ['\\', 'b']
  else if c.toNat = 12 then ['\\', 'f']
  else if c.toNat < 32 then
    ['\\', 'u', '0', '0', Text.hexDigit (c.toNat / 16), Text.hexDigit (c.toNat % 16)]
  else [c]

/-- A string between its quotes. -/
def renderString (text : String) : List Char :=
  '"' :: text.toList.flatMap escapeChar ++ ['"']

/-- An integer in decimal digits. -/
def renderInteger (value : Int) : List Char :=
  let magnitude := Decimal.digitsOf value.natAbs
  if value < 0 then '-' :: magnitude else magnitude

/-- A double, or `null` if it is no number. -/
def renderDecimal (value : Float) : List Char :=
  if value.isFinite then Decimal.exchange.render value else "null".toList

mutual

/-- The text of a value without white space. -/
def compact : Json → List Char
  | null => "null".toList
  | integer value => renderInteger value
  | decimal value => renderDecimal value
  | string value => renderString value
  | array items => '[' :: compactItems items ++ [']']
  | object members => '\x7b' :: compactMembers members ++ ['\x7d']

/-- Items with commas between them. -/
def compactItems : List Json → List Char
  | [] => []
  | [item] => item.compact
  | item :: rest => item.compact ++ ',' :: compactItems rest

/-- Members with commas between them. -/
def compactMembers : List (String × Json) → List Char
  | [] => []
  | [(key, value)] => renderString key ++ ':' :: value.compact
  | (key, value) :: rest =>
      renderString key ++ ':' :: value.compact ++ ',' :: compactMembers rest

end

/-- The start of a line at a depth of nesting. -/
def newLine (depth : Nat) : List Char :=
  '\n' :: List.replicate (2 * depth) ' '

mutual

/-- The text of a value with one item or member to a line. -/
def pretty (depth : Nat) : Json → List Char
  | null => "null".toList
  | integer value => renderInteger value
  | decimal value => renderDecimal value
  | string value => renderString value
  | array [] => ['[', ']']
  | array (item :: items) =>
      '[' :: prettyItems (depth + 1) (item :: items) ++ newLine depth ++ [']']
  | object [] => ['\x7b', '\x7d']
  | object (member :: members) =>
      '\x7b' :: prettyMembers (depth + 1) (member :: members) ++ newLine depth ++ ['\x7d']

/-- Items, each on a line of its own. -/
def prettyItems (depth : Nat) : List Json → List Char
  | [] => []
  | [item] => newLine depth ++ item.pretty depth
  | item :: rest => newLine depth ++ item.pretty depth ++ ',' :: prettyItems depth rest

/-- Members, each on a line of its own. -/
def prettyMembers (depth : Nat) : List (String × Json) → List Char
  | [] => []
  | [(key, value)] =>
      newLine depth ++ renderString key ++ ':' :: ' ' :: value.pretty depth
  | (key, value) :: rest =>
      newLine depth ++ renderString key ++ ':' :: ' ' :: value.pretty depth ++
        ',' :: prettyMembers depth rest

end

/-- A value on a single line. -/
def toCompact (value : Json) : String :=
  String.ofList value.compact

/-- A value laid out for people. -/
def toPretty (value : Json) : String :=
  String.ofList (value.pretty 0)

end Json

end LaserCut
