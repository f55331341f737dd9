/-
# TOML documents

A document is a list of lines: members with dotted keys, headers that open the
table to which the members after them belong, comments and blank lines.
-/

import LaserCut.Toml.Scanner

namespace LaserCut.Toml

/-- The text behind blanks, line endings and comments inside an array. -/
def skipFiller (text : List Char) : List Char :=
  match text with
  | [] => []
  | c :: rest =>
      if isSpace c then skipFiller rest
      else
        match _ended : afterNewline? (skipComment (c :: rest)) with
        | some after => skipFiller after
        | none => c :: rest
termination_by text.length
decreasing_by
  · exact Nat.lt_succ_self _
  · exact Nat.lt_of_lt_of_le (length_afterNewline_lt _ended) (length_skipComment_le _)

/-- A word in the place of a value. -/
def scanWord (word : String) (value : Value) : Scanner Value := fun text =>
  let letters := word.toList
  if text.take letters.length = letters then some (value, text.drop letters.length) else none

mutual

/-- A value inside `depth` arrays and inline tables. -/
def scanValue : Nat → Nat → Scanner Value
  | 0, _, _ => none
  | _ + 1, _, [] => none
  | fuel + 1, depth, c :: rest =>
      if c = '"' ∨ c = '\'' then
        (scanString (c :: rest)).map fun (text, rest) => (.string text, rest)
      else if c = '[' then
        if depth < maxDepth then scanItems fuel (depth + 1) [] rest else none
      else if c = '\x7b' then
        if depth < maxDepth then scanInline fuel (depth + 1) rest else none
      else if c = 't' then scanWord "true" (.boolean true) (c :: rest)
      else if c = 'f' then scanWord "false" (.boolean false) (c :: rest)
      else scanMomentOrNumber (c :: rest)

/-- The items of an array after its opening bracket or a comma; the items so far
are in reverse. -/
def scanItems : Nat → Nat → List Value → Scanner Value
  | 0, _, _, _ => none
  | fuel + 1, depth, items, text =>
      match skipFiller text with
      | ']' :: rest => some (.array items.reverse, rest)
      | text => do
          let (item, rest) ← scanValue fuel depth text
          match skipFiller rest with
          | ',' :: rest => scanItems fuel depth (item :: items) rest
          | ']' :: rest => return (.array (item :: items).reverse, rest)
          | _ => none

/-- An inline table after its opening bracket. -/
def scanInline : Nat → Nat → Scanner Value
  | 0, _, _ => none
  | fuel + 1, depth, text =>
      match skipSpace text with
      | '\x7d' :: rest => some (.table .inline [], rest)
      | text => scanMembers fuel depth [] text

/-- The members of an inline table from one member on. -/
def scanMembers : Nat → Nat → Members → Scanner Value
  | 0, _, _, _ => none
  | fuel + 1, depth, members, text => do
      let ((path, key), rest) ← scanKey text
      let rest ← expect '=' rest
      let (value, rest) ← scanValue fuel depth (skipSpace rest)
      let members ← define path key value (.inline, members)
      match skipSpace rest with
      | ',' :: rest => scanMembers fuel depth members rest
      | '\x7d' :: rest => return (.table .inline members, rest)
      | _ => none

end

/-- A document that is being read: its members so far, and the path of the table
that was opened last. -/
structure State where
  root : Members
  current : List String

/-- Adds a member to the table that was opened last. -/
def State.addMember (state : State) (path : List String) (key : String) (value : Value) :
    Option State :=
  (change false (define path key value) state.current (.header, state.root)).map
    fun root => { state with root := root }

/-- Reads a line with a member. -/
def scanMemberLine (state : State) (text : List Char) : Option (State × List Char) := do
  let ((path, key), rest) ← scanKey text
  let rest ← expect '=' rest
  let value := skipSpace rest
  let (value, rest) ← scanValue (4 * value.length + 4) 0 value
  let rest ← endLine? rest
  return (← state.addMember path key value, rest)

/-- Reads a line with a header, after its first bracket. -/
def scanHeaderLine (state : State) : List Char → Option (State × List Char)
  | '[' :: text => do
      let ((path, key), rest) ← scanKey text
      let rest ← endLine? (← expect ']' (← expect ']' rest))
      let root ← openItem path key state.root
      return (⟨root, path ++ [key]⟩, rest)
  | text => do
      let ((path, key), rest) ← scanKey text
      let rest ← endLine? (← expect ']' rest)
      let root ← openTable path key state.root
      return (⟨root, path ++ [key]⟩, rest)

/-- Reads the lines of a document. -/
def scanLines : Nat → State → List Char → Option Members
  | 0, _, _ => none
  | fuel + 1, state, text =>
      match skipSpace text with
      | [] => some state.root
      | '[' :: rest => do
          let (state, rest) ← scanHeaderLine state rest
          scanLines fuel state rest
      | text =>
          match text.head? with
          | some '#' => (endLine? text).bind (scanLines fuel state)
          | some '\n' => (afterNewline? text).bind (scanLines fuel state)
          | some '\r' => (afterNewline? text).bind (scanLines fuel state)
          | _ => do
              let (state, rest) ← scanMemberLine state text
              scanLines fuel state rest

/-- The members of a document; a byte order mark in front is dropped. -/
def parse (text : String) : Option Members :=
  let chars := text.toList
  let body := if chars.head? = some (Char.ofNat 0xFEFF) then chars.drop 1 else chars
  scanLines (body.length + 1) ⟨[], []⟩ body

end LaserCut.Toml
