/-
# Numbers and strings of JSON texts

A number is read without correct rounding.  Its digits are collected while
they fit a machine word, and what is collected is scaled by one power of ten;
so a long number may come out a unit in the last place away from the double
that is nearest to it.
-/

import LaserCut.Decimal.Reader
import LaserCut.Json.Node
import LaserCut.Text.Hex

namespace LaserCut.Json

/-- The largest significand. -/
def maxSignificand : Nat :=
  UInt64.size - 1

/-- Appends digits to a significand while it fits a machine word, and gives
back the digits that are left. -/
def collect (significand : Nat) : List Char → Nat × List Char
  | [] => (significand, [])
  | c :: rest =>
      let next := 10 * significand + (c.toNat - '0'.toNat)
      if next ≤ maxSignificand then collect next rest else (significand, c :: rest)

/-- The greatest power of ten that is applied in one step. -/
def maxPower : Nat :=
  308

/-- The value `value * 10 ^ power` in steps, each of which rounds; nothing if the
result is too large. -/
def scale (value : Float) (power : Int) : Option Float :=
  if power.natAbs ≤ maxPower then
    if 0 ≤ power then
      let result := value * Decimal.nearest 1 power
      if result.isInf then none else some result
    else some (value / Decimal.nearest 1 (-power))
  else if value == 0.0 then some value
  else if 0 ≤ power then none
  else scale (value / Decimal.nearest 1 maxPower) (power + maxPower)
termination_by (-power).toNat
decreasing_by
  simp only [maxPower] at *
  omega

/-- An exponent part: its sign and digits. -/
structure ExponentPart where
  negative : Bool
  digits : List Char

/-- The largest exponent that is taken as written; beyond it, only its sign
counts. -/
def maxExponent : Nat :=
  0x7FFFFFFF

/-- A number with a point or an exponent, or one that fits no machine word. -/
def decimalOf (negative : Bool) (whole fraction : List Char)
    (exponent : Option ExponentPart) : Numeral :=
  let (significand, dropped) := collect 0 whole
  let (significand, unread) := collect significand fraction
  let shift : Int := dropped.length - (fraction.length - unread.length : Nat)
  let scaled (power : Int) : Numeral :=
    match scale (Float.ofNat significand) power with
    | some value => .decimal (Decimal.signed negative value)
    | none => .tooLarge
  match exponent with
  | none => scaled shift
  | some part =>
      let magnitude := Decimal.valueOf part.digits
      if magnitude ≤ maxExponent then
        scaled (if part.negative then shift - magnitude else shift + magnitude)
      else if significand = 0 ∨ part.negative then .decimal (Decimal.signed negative 0.0)
      else .tooLarge

/-- A number without point and exponent.  A negative zero is no integer. -/
def integerOf (negative : Bool) (whole : List Char) : Numeral :=
  let magnitude := Decimal.valueOf whole
  if negative then
    if magnitude = 0 ∨ 0x8000000000000000 < magnitude then decimalOf true whole [] none
    else .integer (-magnitude)
  else if magnitude ≤ maxSignificand then .integer magnitude
  else decimalOf false whole [] none

/-- The fault of a number without a digit where one has to follow. -/
def missingDigit (rest : List Char) : Fault :=
  if rest.isEmpty then ⟨.ended, .malformed, .malformed⟩ else .of .malformed

/-- The fraction digits after a point, if there is one. -/
def scanFraction : List Char → Except Fault (List Char × List Char)
  | '.' :: rest =>
      let (digits, after) := Decimal.spanDigits rest
      if digits.isEmpty then .error (missingDigit rest) else .ok (digits, after)
  | rest => .ok ([], rest)

/-- The exponent part, if there is one. -/
def scanExponent : List Char → Except Fault (Option ExponentPart × List Char)
  | c :: rest =>
      if c = 'e' ∨ c = 'E' then
        let (negative, rest) := Decimal.takeSign rest
        let (digits, after) := Decimal.spanDigits rest
        if digits.isEmpty then .error (missingDigit rest)
        else .ok (some ⟨negative, digits⟩, after)
      else .ok (none, c :: rest)
  | [] => .ok (none, [])

/-- Reads a number without its sign. -/
def scanMagnitude (negative : Bool) (text : List Char) :
    Except Fault (Numeral × List Char) := do
  let (whole, rest) := Decimal.spanDigits text
  if whole.isEmpty then throw (missingDigit text)
  if whole.head? = some '0' ∧ whole.length ≠ 1 then throw (.of .malformed)
  let (fraction, rest) ← scanFraction rest
  let (exponent, rest) ← scanExponent rest
  if fraction.isEmpty ∧ exponent.isNone then return (integerOf negative whole, rest)
  else return (decimalOf negative whole fraction exponent, rest)

/-- Reads a number. -/
def scanNumber : List Char → Except Fault (Numeral × List Char)
  | '-' :: rest => scanMagnitude true rest
  | text => scanMagnitude false text

/-- A part of a string: a character, or one half of a surrogate pair. -/
inductive Piece
  | char (c : Char)
  | surrogate (unit : Nat)
  deriving DecidableEq

/-- The part of a string that four hexadecimal digits denote. -/
def pieceOf (unit : Nat) : Piece :=
  if 0xD800 ≤ unit ∧ unit ≤ 0xDFFF then .surrogate unit else .char (Char.ofNat unit)

/-- The characters that are written with a backslash and a letter. -/
def escaped? : Char → Option Char
  | '"' => some '"'
  | '\\' => some '\\'
  | '/' => some '/'
  | 'b' => some (Char.ofNat 8)
  | 'f' => some (Char.ofNat 12)
  | 'n' => some '\n'
  | 'r' => some '\r'
  | 't' => some '\t'
  | _ => none

/-- How a text with fewer than four characters ends an escape: it has stopped,
unless its bytes would have been enough. -/
def shortEscape (rest : List Char) : Breach :=
  if (String.ofList rest).utf8ByteSize < 4 then .ended else .malformed

/-- The parts of a string after its opening quote, in reverse, and the text
after its closing quote. -/
def scanPieces (pieces : List Piece) : List Char → List Piece × Except Breach (List Char)
  | [] => (pieces, .error .ended)
  | ['\\'] => (pieces, .error .ended)
  | '\\' :: c :: rest =>
      match escaped? c with
      | some meant => scanPieces (.char meant :: pieces) rest
      | none =>
          if c ≠ 'u' then (pieces, .error .malformed)
          else
            match rest with
            | a :: b :: c :: d :: more =>
                match Text.numberIn? 16 [a, b, c, d] with
                | some unit => scanPieces (pieceOf unit :: pieces) more
                | none => (pieces, .error .malformed)
            | short => (pieces, .error (shortEscape short))
  | c :: rest =>
      if c = '"' then (pieces, .ok rest)
      else if c.toNat < 32 then (pieces, .error .malformed)
      else scanPieces (.char c :: pieces) rest

/-- Whether a unit is the first half of a pair. -/
def isLeading (unit : Nat) : Bool :=
  unit ≤ 0xDBFF

/-- The character that a surrogate pair denotes. -/
def pairChar (leading trailing : Nat) : Char :=
  Char.ofNat (0x10000 + (leading - 0xD800) * 0x400 + (trailing - 0xDC00))

/-- Joins the parts of a string, with `ending` for what is wrong with the text
right after them.  A half of a pair on its own is refused. -/
def joinPieces (ending : Option Breach) : List Piece → Except Breach (List Char)
  | [] => ending.elim (.ok []) .error
  | .char c :: rest => (joinPieces ending rest).map (c :: ·)
  | [.surrogate unit] =>
      .error (if isLeading unit then ending.getD .malformed else .malformed)
  | .surrogate leading :: .surrogate trailing :: rest =>
      if isLeading leading ∧ !isLeading trailing then
        (joinPieces ending rest).map (pairChar leading trailing :: ·)
      else .error .malformed
  | .surrogate _ :: .char _ :: _ => .error .malformed

/-- The text of a string literal, and the rest of the text behind it. -/
def scanString (text : List Char) : Except Fault (Except Breach String × List Char) :=
  let (reversed, rest) := scanPieces [] text
  match rest with
  | .ok rest => .ok ((joinPieces none reversed.reverse).map String.ofList, rest)
  | .error skipped =>
      match joinPieces (some skipped) reversed.reverse with
      | .error read => .error ⟨read, skipped, read⟩
      | .ok _ => .error (.of skipped)

end LaserCut.Json
