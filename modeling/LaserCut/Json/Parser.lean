/-
# The tree of a JSON text

At most four steps of the parser go by before one takes a character, so the
length of the text bounds the number of steps.
-/

import LaserCut.Json.Scanner

namespace LaserCut.Json

/-- The white space of JSON. -/
def isSpace (c : Char) : Bool :=
  c == ' ' || c == '\n' || c == '\t' || c == '\r'

/-- A text without the white space in front. -/
def skipSpace (text : List Char) : List Char :=
  text.dropWhile isSpace

/-- Reads the rest of a word. -/
def scanWord : List Char → List Char → Except Breach (List Char)
  | [], text => .ok text
  | _ :: _, [] => .error .ended
  | expected :: word, c :: rest =>
      if c = expected then scanWord word rest else .error .malformed

/-- A node, and the text behind it unless the text is broken in it. -/
abbrev Parsed :=
  Node × Option (List Char)

/-- A fault in the place of a value. -/
def broken (fault : Fault) : Parsed :=
  (.broken fault, none)

/-- A value that is written as a word. -/
def parseWord (value : Node) (word : String) (text : List Char) : Parsed :=
  match scanWord word.toList text with
  | .ok rest => (value, some rest)
  | .error breach => broken ⟨breach, breach, .malformed⟩

/-- A string after its opening quote. -/
def parseString (text : List Char) : Parsed :=
  match scanString text with
  | .ok (content, rest) => (.string content, some rest)
  | .error fault => broken fault

/-- A number. -/
def parseNumber (text : List Char) : Parsed :=
  match scanNumber text with
  | .ok (value, rest) => (.number value, some rest)
  | .error fault => broken fault

mutual

/-- Reads a value. -/
def parseValue : Nat → List Char → Parsed
  | 0, _ => broken (.of .ended)
  | fuel + 1, text =>
      match skipSpace text with
      | [] => broken (.of .ended)
      | c :: rest =>
          if c = '\x7b' then parseObject fuel rest
          else if c = '[' then parseArray fuel rest
          else if c = '"' then parseString rest
          else if c = '-' ∨ c.isDigit then parseNumber (c :: rest)
          else if c = 'n' then parseWord .null "ull" rest
          else if c = 't' then parseWord (.bool true) "rue" rest
          else if c = 'f' then parseWord (.bool false) "alse" rest
          else broken (.of .malformed)

/-- Reads an array after its opening bracket. -/
def parseArray : Nat → List Char → Parsed
  | 0, _ => broken (.of .ended)
  | fuel + 1, text =>
      match skipSpace text with
      | [] => (.array [] (some .ended), none)
      | ']' :: rest => (.array [] none, some rest)
      | rest => parseItems fuel [] rest

/-- Reads the items of an array from one item on; the items so far are in
reverse. -/
def parseItems : Nat → List Node → List Char → Parsed
  | 0, _, _ => broken (.of .ended)
  | fuel + 1, items, text =>
      match parseValue fuel text with
      | (item, none) => (.array (item :: items).reverse none, none)
      | (item, some rest) =>
          match skipSpace rest with
          | [] => (.array (item :: items).reverse (some .ended), none)
          | ',' :: rest => parseItems fuel (item :: items) rest
          | ']' :: rest => (.array (item :: items).reverse none, some rest)
          | _ => (.array (item :: items).reverse (some .malformed), none)

/-- Reads an object after its opening bracket. -/
def parseObject : Nat → List Char → Parsed
  | 0, _ => broken (.of .ended)
  | fuel + 1, text =>
      match skipSpace text with
      | [] => (.object [] (some .ended), none)
      | '\x7d' :: rest => (.object [] none, some rest)
      | rest => parseMembers fuel [] rest

/-- Reads the members of an object from one member on; the members so far are
in reverse. -/
def parseMembers : Nat → List Member → List Char → Parsed
  | 0, _, _ => broken (.of .ended)
  | fuel + 1, members, text =>
      match parseMember fuel text with
      | (member, none) => (.object (member :: members).reverse none, none)
      | (member, some rest) =>
          match skipSpace rest with
          | [] => (.object (member :: members).reverse (some .ended), none)
          | ',' :: rest => parseMembers fuel (member :: members) rest
          | '\x7d' :: rest => (.object (member :: members).reverse none, some rest)
          | _ => (.object (member :: members).reverse (some .malformed), none)

/-- Reads a member. -/
def parseMember : Nat → List Char → Member × Option (List Char)
  | 0, _ => (.keyless (.of .ended) (.broken (.of .ended)), none)
  | fuel + 1, text =>
      match skipSpace text with
      | [] => (.keyless (.of .ended) (.broken (.of .ended)), none)
      | '"' :: rest =>
          match scanString rest with
          | .error fault => (.keyless fault (.broken fault), none)
          | .ok (key, rest) =>
              match skipSpace rest with
              | [] => (.keyed key (.broken (.of .ended)), none)
              | ':' :: rest =>
                  let (value, rest) := parseValue fuel rest
                  (.keyed key value, rest)
              | _ => (.keyed key (.broken (.of .malformed)), none)
      | rest => (.keyless (.of .malformed) (parseValue fuel rest).1, none)

end

/-- The tree of a text, and what stands behind its value. -/
def parse (text : List Char) : Parsed :=
  parseValue (4 * text.length + 4) text

end LaserCut.Json
