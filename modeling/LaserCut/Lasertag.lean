/-
# Lasertags

A design can carry rows of metadata that describe its passes:

    pass number, feedrate, its unit, intensity, its unit, six colors

Passes count from one.  The rows are applied in order, and several rows may
describe one pass.  A row that is no lasertag is reported and skipped.
-/

import LaserCut.Decimal.Rounding
import LaserCut.Message
import LaserCut.Pass
import LaserCut.Text.Quoted

namespace LaserCut

/-- A field of a lasertag. -/
inductive TagValue
  | number (value : Float)
  | text (value : String)
  deriving DecidableEq

namespace TagValue

/-- A field as a message shows it. -/
def shown : TagValue → String
  | .number value => Decimal.display value
  | .text value => Text.quoted value

/-- The number in a field. -/
def number? : TagValue → Option Float
  | .number value => some value
  | .text _ => none

/-- The text in a field. -/
def text? : TagValue → Option String
  | .number _ => none
  | .text value => some value

/-- The number in a field unless it is zero, which means that the field is left
blank. -/
def setting? (field : TagValue) : Option Float :=
  field.number?.filter fun value => value != 0

/-- The color in a field: a text that starts with a hash. -/
def color? (field : TagValue) : Option String :=
  field.text?.filter fun text => text.toList.head? = some '#'

/-- The place of a pass in the list, counted from one: a whole number. -/
def passNumber? (field : TagValue) : Option Nat :=
  match field.number?.bind Decimal.whole? with
  | some (.ofNat place) => if 1 ≤ place then some (min place Decimal.maxCount) else none
  | _ => none

end TagValue

/-- A well-formed row. -/
structure Lasertag where
  passNumber : Nat
  feedrate : Option Float
  intensity : Option Float
  colors : List String

/-- Why a row is no lasertag. -/
inductive LasertagFault
  | arity (found : Nat)
  | passNumber (field : String)
  deriving DecidableEq

/-- The text of the report about a row. -/
def LasertagFault.text : LasertagFault → String
  | .arity found =>
      "invalid lasertag (num of args): expected 11, found " ++ toString found
  | .passNumber field => "invalid lasertag (pass number): " ++ field

/-- The report about a row. -/
def LasertagFault.message (fault : LasertagFault) : Message :=
  ⟨.error, fault.text⟩

namespace Lasertag

/-- Reads a row; the number of its fields is checked first. -/
def ofRow : List TagValue → Except LasertagFault Lasertag
  | [number, feedrate, _, intensity, _, c₁, c₂, c₃, c₄, c₅, c₆] =>
      match number.passNumber? with
      | some passNumber =>
          .ok ⟨passNumber, feedrate.setting?, intensity.setting?,
            [c₁, c₂, c₃, c₄, c₅, c₆].filterMap TagValue.color?⟩
      | none => .error (.passNumber number.shown)
  | row => .error (.arity row.length)

/-- What a lasertag says about its pass: values that it leaves blank stay, and
its colors come after those already there. -/
def describe (tag : Lasertag) (pass : Pass) : Pass where
  colors := pass.colors ++ tag.colors
  feedrate := tag.feedrate.getD pass.feedrate
  intensity := tag.intensity.getD pass.intensity

/-- Applies a lasertag to a list of passes, which grows to hold its pass. -/
def apply (tag : Lasertag) (passes : List Pass) : List Pass :=
  let missing := List.replicate (tag.passNumber - passes.length) Pass.default
  (passes ++ missing).modify (tag.passNumber - 1) tag.describe

end Lasertag

/-- The passes that rows describe. -/
def passesOfRows (rows : List (List TagValue)) : List Pass :=
  rows.foldl (fun passes row =>
    match Lasertag.ofRow row with
    | .ok tag => tag.apply passes
    | .error _ => passes) []

/-- The faults of the rows that are skipped. -/
def faultsOfRows (rows : List (List TagValue)) : List LasertagFault :=
  rows.filterMap fun row =>
    match Lasertag.ofRow row with
    | .ok _ => none
    | .error fault => some fault

end LaserCut
