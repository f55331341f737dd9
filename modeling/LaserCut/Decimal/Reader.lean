/-
# Reading decimal numbers

A number is read exactly and then rounded once, to the nearest double.  A sign
may only stand in front, there is at least one digit on either side of an
optional point, and a number that is too large becomes infinite.
-/

import LaserCut.Decimal.Binary

namespace LaserCut.Decimal

/-- The digits at the start of a text, and what follows them. -/
def spanDigits (text : List Char) : List Char × List Char :=
  text.span Char.isDigit

/-- The number that a digit list denotes. -/
def valueOf (digits : List Char) : Nat :=
  digits.foldl (fun n c => 10 * n + (c.toNat - '0'.toNat)) 0

/-- A sign at the start of a text, true for a minus, and what follows it. -/
def takeSign : List Char → Bool × List Char
  | '-' :: rest => (true, rest)
  | '+' :: rest => (false, rest)
  | text => (false, text)

/-- The double that is nearest to `digits * 10 ^ power`. -/
def nearest (digits : Nat) (power : Int) : Float :=
  Float.ofScientific digits (power < 0) power.natAbs

/-- A double with a sign. -/
def signed (negative : Bool) (magnitude : Float) : Float :=
  if negative then -magnitude else magnitude

/-- The exponent part that ends a number, zero if there is none. -/
def exponentPart? : List Char → Option Int
  | [] => some 0
  | c :: rest =>
      if c = 'e' ∨ c = 'E' then
        let (negative, rest) := takeSign rest
        let (digits, rest) := spanDigits rest
        if digits.isEmpty ∨ !rest.isEmpty then none
        else
          let magnitude : Nat := valueOf digits
          some (if negative then -magnitude else magnitude)
      else none

/-- Digits with an optional point and an optional exponent, to the end of the
text. -/
def magnitude? (text : List Char) : Option Float :=
  let (whole, rest) := spanDigits text
  let (fraction, rest) :=
    match rest with
    | '.' :: rest => spanDigits rest
    | rest => ([], rest)
  if whole.isEmpty ∧ fraction.isEmpty then none
  else
    (exponentPart? rest).map fun power =>
      nearest (valueOf (whole ++ fraction)) (power - fraction.length)

/-- The values that have names, in letters of either case. -/
def named? (text : List Char) : Option Float :=
  let name := String.ofList (text.map Char.toLower)
  if name = "inf" ∨ name = "infinity" then some (1.0 / 0.0)
  else if name = "nan" then some (0.0 / 0.0)
  else none

/-- Reads a whole text as a number. -/
def read? (text : List Char) : Option Float :=
  let (negative, rest) := takeSign text
  ((magnitude? rest).orElse fun _ => named? rest).map (signed negative)

end LaserCut.Decimal
