/-
# Strings, numbers and moments of TOML

Each scanner takes its lexeme off the front of the text.
-/

import LaserCut.Decimal.Reader
import LaserCut.Text.Hex
import LaserCut.Toml.Value

namespace LaserCut.Toml

/-- Takes something off the front of a text, if it is there. -/
abbrev Scanner (α : Type) :=
  List Char → Option (α × List Char)

/-- A space or a tab. -/
def isSpace (c : Char) : Bool :=
  c == ' ' || c == '\t'

/-- A text without the spaces and tabs in front. -/
def skipSpace (text : List Char) : List Char :=
  text.dropWhile isSpace

/-- Whether a character may stand in comments and strings: no control character
but a tab. -/
def isPlain (c : Char) : Bool :=
  c == '\t' || (' ' ≤ c && c.toNat ≠ 0x7F)

/-- The text behind a line ending. -/
def afterNewline? : List Char → Option (List Char)
  | '\n' :: rest => some rest
  | '\r' :: '\n' :: rest => some rest
  | _ => none

/-- A line ending takes at least one character. -/
theorem length_afterNewline_lt {text rest : List Char} (h : afterNewline? text = some rest) :
    rest.length < text.length := by
  unfold afterNewline? at h
  split at h
  · cases h
    exact Nat.lt_succ_self _
  · cases h
    simp only [List.length_cons]
    omega
  · cases h

/-- The text behind a comment, if there is one. -/
def skipComment : List Char → List Char
  | '#' :: rest => rest.dropWhile isPlain
  | text => text

/-- A comment only takes characters away. -/
theorem length_skipComment_le (text : List Char) :
    (skipComment text).length ≤ text.length := by
  unfold skipComment
  split
  · exact Nat.le_succ_of_le (List.dropWhile_suffix _).length_le
  · exact Nat.le_refl _

/-- The text behind the end of a line: blanks, a comment and the line ending, or
the end of the text. -/
def endLine? (text : List Char) : Option (List Char) :=
  match skipComment (skipSpace text) with
  | [] => some []
  | rest => afterNewline? rest

/-- Whether a character may stand in a key without quotes. -/
def isBare (c : Char) : Bool :=
  c.isAlphanum || c == '_' || c == '-'

/-- The character with a number, which is no half of a surrogate pair. -/
def scalar? (n : Nat) : Option Char :=
  if h : n.isValidChar then some (Char.ofNatAux n h) else none

/-- A character by its number in `count` hexadecimal digits. -/
def scanCode (count : Nat) : Scanner Char := fun text => do
  let digits := text.take count
  if digits.length < count then none
  let n ← Text.numberIn? 16 digits
  return (← scalar? n, text.drop count)

/-- What follows a backslash. -/
def scanEscape : Scanner Char
  | 'b' :: rest => some (Char.ofNat 8, rest)
  | 't' :: rest => some ('\t', rest)
  | 'n' :: rest => some ('\n', rest)
  | 'f' :: rest => some (Char.ofNat 12, rest)
  | 'r' :: rest => some ('\r', rest)
  | '"' :: rest => some ('"', rest)
  | '\\' :: rest => some ('\\', rest)
  | 'u' :: rest => scanCode 4 rest
  | 'U' :: rest => scanCode 8 rest
  | _ => none

/-- A string on one line, after its opening quote; the content so far is in
reverse. -/
def scanBasic : Nat → List Char → Scanner String
  | 0, _, _ => none
  | _ + 1, _, [] => none
  | fuel + 1, content, c :: rest =>
      if c = '"' then some (String.ofList content.reverse, rest)
      else if c = '\\' then do
        let (meant, rest) ← scanEscape rest
        scanBasic fuel (meant :: content) rest
      else if isPlain c then scanBasic fuel (c :: content) rest
      else none

/-- A string without escapes on one line, after its opening quote. -/
def scanLiteral (text : List Char) : Option (String × List Char) :=
  let (content, rest) := text.span fun c => isPlain c && c != '\''
  match rest with
  | '\'' :: rest => some (String.ofList content, rest)
  | _ => none

/-- The text behind blanks and line endings. -/
def skipBlankLines (text : List Char) : List Char :=
  match text with
  | [] => []
  | c :: rest =>
      if isSpace c then skipBlankLines rest
      else
        match _ended : afterNewline? (c :: rest) with
        | some after => skipBlankLines after
        | none => c :: rest
termination_by text.length
decreasing_by
  · exact Nat.lt_succ_self _
  · exact length_afterNewline_lt _ended

/-- The number of quotes at the start of a text, up to five. -/
def quoteRun (quote : Char) (text : List Char) : Nat :=
  min ((text.takeWhile (· == quote)).length) 5

/-- A string over several lines, after its opening quotes.  Up to two quotes may
stand before the closing ones.  Escapes are read only if `escapes` is set. -/
def scanLong (quote : Char) (escapes : Bool) : Nat → List Char → Scanner String
  | 0, _, _ => none
  | _ + 1, _, [] => none
  | fuel + 1, content, c :: rest =>
      if c = quote then
        let run := quoteRun quote (c :: rest)
        if run < 3 then scanLong quote escapes fuel (c :: content) rest
        else
          let quotes := List.replicate (run - 3) quote
          some (String.ofList (content.reverse ++ quotes), (c :: rest).drop run)
      else if c = '\\' ∧ escapes then
        match afterNewline? (skipSpace rest) with
        | some after =>
            scanLong quote escapes fuel content (skipBlankLines after)
        | none => do
            let (meant, rest) ← scanEscape rest
            scanLong quote escapes fuel (meant :: content) rest
      else if isPlain c then scanLong quote escapes fuel (c :: content) rest
      else do
        let rest ← afterNewline? (c :: rest)
        scanLong quote escapes fuel ('\n' :: content) rest

/-- A string over several lines, whose first line ending does not count. -/
def scanLongString (quote : Char) (escapes : Bool) (text : List Char) :
    Option (String × List Char) :=
  let body := (afterNewline? text).getD text
  scanLong quote escapes (body.length + 1) [] body

/-- A string of any form. -/
def scanString : Scanner String
  | '"' :: '"' :: '"' :: rest => scanLongString '"' true rest
  | '"' :: rest => scanBasic (rest.length + 1) [] rest
  | '\'' :: '\'' :: '\'' :: rest => scanLongString '\'' false rest
  | '\'' :: rest => scanLiteral rest
  | _ => none

/-- One part of a key. -/
def scanKeyPart : Scanner String
  | '"' :: rest => scanBasic (rest.length + 1) [] rest
  | '\'' :: rest => scanLiteral rest
  | text =>
      let (name, rest) := text.span isBare
      if name.isEmpty then none else some (String.ofList name, rest)

/-- The greatest nesting of values, and the greatest number of parts of a key. -/
def maxDepth : Nat :=
  79

/-- The parts of a key, with the blanks around them. -/
def scanKeyParts : Nat → Scanner (List String)
  | 0, _ => none
  | fuel + 1, text => do
      let (part, rest) ← scanKeyPart (skipSpace text)
      match skipSpace rest with
      | '.' :: rest =>
          let (parts, rest) ← scanKeyParts fuel rest
          return (part :: parts, rest)
      | rest => return ([part], rest)

/-- A key: its path and its last part. -/
def scanKey (text : List Char) : Option ((List String × String) × List Char) := do
  let (parts, rest) ← scanKeyParts maxDepth text
  let last ← parts.getLast?
  return ((parts.dropLast, last), rest)

/-- Digits of some kind with single underscores between them. -/
def scanDigits (isDigit : Char → Bool) : Scanner (List Char)
  | c :: '_' :: d :: rest =>
      if isDigit c ∧ isDigit d then
        (scanDigits isDigit (d :: rest)).map fun (digits, rest) => (c :: digits, rest)
      else if isDigit c then some ([c], '_' :: d :: rest)
      else none
  | c :: rest =>
      if isDigit c then
        match scanDigits isDigit rest with
        | some (digits, rest) => some (c :: digits, rest)
        | none => some ([c], rest)
      else none
  | [] => none

/-- A whole number that a file can hold: one of 64 bits with its sign. -/
def storable? (value : Int) : Option Value :=
  if -0x8000000000000000 ≤ value ∧ value < 0x8000000000000000 then some (.integer value)
  else none

/-- A number in another base, after its mark. -/
def scanRadix (base : Nat) (isDigit : Char → Bool) : Scanner Value := fun text => do
  let (digits, rest) ← scanDigits isDigit text
  let n ← Text.numberIn? base digits
  return (← storable? n, rest)

/-- The fraction of a number with its point, if there is one. -/
def scanFraction : Scanner (List Char)
  | '.' :: rest =>
      (scanDigits Char.isDigit rest).map fun (digits, rest) => ('.' :: digits, rest)
  | rest => some ([], rest)

/-- The exponent part of a number with its mark, if there is one. -/
def scanExponent : Scanner (List Char)
  | c :: rest =>
      if c = 'e' ∨ c = 'E' then
        let (negative, digitsFrom) := Decimal.takeSign rest
        (scanDigits Char.isDigit digitsFrom).map fun (digits, rest) =>
          ('e' :: (if negative then '-' :: digits else digits), rest)
      else some ([], c :: rest)
  | [] => some ([], [])

/-- A decimal number after its sign.  One that overflows upward is refused. -/
def scanDecimal (negative : Bool) : Scanner Value := fun text => do
  let (whole, rest) ← scanDigits Char.isDigit text
  if whole.head? = some '0' ∧ whole.length ≠ 1 then none
  let (fraction, rest) ← scanFraction rest
  let (exponent, rest) ← scanExponent rest
  if fraction.isEmpty ∧ exponent.isEmpty then
    let magnitude : Int := Decimal.valueOf whole
    return (← storable? (if negative then -magnitude else magnitude), rest)
  else
    let value := Decimal.signed negative (← Decimal.read? (whole ++ fraction ++ exponent))
    if value.isInf ∧ !negative then none
    return (.decimal value, rest)

/-- A number with or without a sign. -/
def scanNumber : Scanner Value
  | '0' :: 'x' :: rest => scanRadix 16 (fun c => (Text.hexValue? c).isSome) rest
  | '0' :: 'o' :: rest => scanRadix 8 (fun c => '0' ≤ c && c ≤ '7') rest
  | '0' :: 'b' :: rest => scanRadix 2 (fun c => c == '0' || c == '1') rest
  | text =>
      match Decimal.takeSign text with
      | (negative, 'i' :: 'n' :: 'f' :: rest) =>
          some (.decimal (Decimal.signed negative (1.0 / 0.0)), rest)
      | (negative, 'n' :: 'a' :: 'n' :: rest) =>
          some (.decimal (Decimal.signed negative (0.0 / 0.0)), rest)
      | (negative, rest) => scanDecimal negative rest

/-- A number of exactly `count` digits between two bounds. -/
def scanBounded (count least greatest : Nat) : Scanner Nat := fun text =>
  let digits := text.take count
  let value := Decimal.valueOf digits
  if digits.length = count ∧ digits.all Char.isDigit ∧
      least ≤ value ∧ value ≤ greatest then
    some (value, text.drop count)
  else none

/-- A given character. -/
def expect (expected : Char) : List Char → Option (List Char)
  | c :: rest => if c = expected then some rest else none
  | [] => none

/-- The number of days of a month. -/
def daysOf (year month : Nat) : Nat :=
  if month = 2 then
    if year % 4 = 0 ∧ (year % 100 ≠ 0 ∨ year % 400 = 0) then 29 else 28
  else if month = 4 ∨ month = 6 ∨ month = 9 ∨ month = 11 then 30
  else 31

/-- The text behind a date. -/
def skipDate (text : List Char) : Option (List Char) := do
  let (year, rest) ← scanBounded 4 0 9999 text
  let (month, rest) ← scanBounded 2 1 12 (← expect '-' rest)
  let (_, rest) ← scanBounded 2 1 (daysOf year month) (← expect '-' rest)
  return rest

/-- The text behind a time of day. -/
def skipTime (text : List Char) : Option (List Char) := do
  let (_, rest) ← scanBounded 2 0 23 text
  let (_, rest) ← scanBounded 2 0 59 (← expect ':' rest)
  let (_, rest) ← scanBounded 2 0 60 (← expect ':' rest)
  match rest with
  | '.' :: after =>
      if (after.takeWhile Char.isDigit).isEmpty then return rest
      else return after.dropWhile Char.isDigit
  | _ => return rest

/-- The text behind an offset from universal time, if there is one. -/
def skipOffset (text : List Char) : Option (List Char) :=
  match text with
  | c :: rest =>
      if c = 'Z' ∨ c = 'z' then some rest
      else if c = '+' ∨ c = '-' then do
        let (_, rest) ← scanBounded 2 0 23 rest
        let (_, rest) ← scanBounded 2 0 59 (← expect ':' rest)
        return rest
      else some text
  | [] => some []

/-- The text behind a date, a time or both. -/
def skipMoment (text : List Char) : Option (List Char) :=
  match skipDate text with
  | none => skipTime text
  | some rest =>
      match rest with
      | c :: after =>
          if c = 'T' ∨ c = 't' ∨ c = ' ' then
            match skipTime after with
            | some rest => skipOffset rest
            | none => some rest
          else some rest
      | [] => some []

/-- A moment, or a number if it is none. -/
def scanMomentOrNumber (text : List Char) : Option (Value × List Char) :=
  match skipMoment text with
  | some rest => some (.moment, rest)
  | none => scanNumber text

end LaserCut.Toml
