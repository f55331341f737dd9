/-
# Texts of doubles

Three layouts write the same shortest digits.  They differ in which powers
of ten are written out with zeros, in whether a whole number keeps a point,
and in where an exact tie between two shortest texts goes; one record holds
these decisions.
-/

import LaserCut.Decimal.Shortest

namespace LaserCut.Decimal

/-- The decisions of a layout. -/
structure Layout where
  /-- Whether a number with this power of ten is written out in full. -/
  positional : Int → Bool
  /-- Whether a whole number that is written out ends in `.0`. -/
  keepsPoint : Bool
  tie : Tie

/-- Never an exponent and no point in a whole number: words of a machine
program and values inside messages. -/
def plain : Layout :=
  ⟨fun _ => true, false, .up⟩

/-- Documents for exchange: an exponent outside of `1e-5` to `1e15`. -/
def exchange : Layout :=
  ⟨fun exponent => -5 ≤ exponent && exponent ≤ 15, true, .toEven⟩

/-- Configuration files: never an exponent, always a point. -/
def configuration : Layout :=
  ⟨fun _ => true, true, .up⟩

/-- Digits with the point where it belongs, padded with zeros. -/
def writtenOut (keepsPoint : Bool) (number : Significant) : List Char :=
  let digits := number.digits
  if number.exponent < 0 then
    '0' :: '.' :: List.replicate (-number.exponent - 1).toNat '0' ++ digits
  else
    let places := number.exponent.toNat + 1
    if digits.length ≤ places then
      let whole := digits ++ List.replicate (places - digits.length) '0'
      if keepsPoint then whole ++ ['.', '0'] else whole
    else digits.take places ++ '.' :: digits.drop places

/-- Digits with a point after the first and a signed exponent. -/
def withExponent (number : Significant) : List Char :=
  let fraction := number.digits.drop 1
  let point := if fraction.isEmpty then [] else '.' :: fraction
  let sign := if number.exponent < 0 then '-' else '+'
  number.digits.take 1 ++ point ++ 'e' :: sign :: digitsOf number.exponent.natAbs

/-- The digits of a finite magnitude; zero has a digit of its own. -/
def significant (tie : Tie) (mantissa : Nat) (exponent : Int) : Significant :=
  if mantissa = 0 then ⟨['0'], 0⟩ else shortest tie mantissa exponent

/-- The text of a double in a layout. -/
def Layout.render (form : Layout) (value : Float) : List Char :=
  match Binary.ofFloat value with
  | .nan => "NaN".toList
  | .infinite negative => (if negative then "-inf" else "inf").toList
  | .finite negative mantissa exponent =>
      let number := significant form.tie mantissa exponent
      let magnitude :=
        if form.positional number.exponent then writtenOut form.keepsPoint number
        else withExponent number
      if negative then '-' :: magnitude else magnitude

/-- The plain text of a double. -/
def display (value : Float) : String :=
  String.ofList (plain.render value)

end LaserCut.Decimal
