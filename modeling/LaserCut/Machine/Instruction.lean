/-
# Instructions of a machine program

An instruction is one line of the program.  Data lines carry raster samples as
they are; every other line is made of letters with numbers.
-/

import LaserCut.Decimal.Fixed
import LaserCut.Machine.Limits
import LaserCut.Raster

namespace LaserCut.Machine

/-- One line of a machine program. -/
inductive Instruction
  /-- Coordinates count from the corner of the bed. -/
  | absolute
  | airOn
  | airOff
  /-- Sets the feedrate of moves that do not cut. -/
  | seekRate (rate : Nat)
  /-- Sets the feedrate of engraving. -/
  | engraveRate (rate : Nat)
  /-- Sets the feedrate of cutting moves. -/
  | feedRate (rate : Float)
  | power (level : Nat)
  | seek (target : Point Float)
  | feed (target : Point Float)
  /-- A corner of the frame that is shown before a job. -/
  | frame (corner : Point Float)
  /-- Returns to the corner of the bed. -/
  | home (rate : Nat)
  | dotPitch (pitch : Float)
  | runway (length : Float)
  /-- Starts the next raster row. -/
  | nextRow
  | samples (data : List UInt8)
  deriving DecidableEq

/-- A point as two words. -/
def pointWords (places : Nat) (point : Point Float) : List Char :=
  'X' :: Decimal.fixed point.x places ++ 'Y' :: Decimal.fixed point.y places

/-- The decimal places of a frame, whatever the settings say. -/
def framePlaces : Nat :=
  3

namespace Instruction

/-- The text of an instruction, with the places that coordinates have. -/
def render (places : Nat) : Instruction → List Char
  | absolute => "G90".toList
  | airOn => "M80".toList
  | airOff => "M81".toList
  | seekRate rate => "G0F".toList ++ Decimal.digitsOf rate
  | engraveRate rate => "G1F".toList ++ Decimal.digitsOf rate
  | feedRate rate => "G1F".toList ++ numberText rate
  | power level => 'S' :: Decimal.digitsOf level
  | seek target => "G0".toList ++ pointWords places target
  | feed target => "G1".toList ++ pointWords places target
  | frame corner => "G00".toList ++ pointWords framePlaces corner
  | home rate => "G0X0Y0F".toList ++ Decimal.digitsOf rate
  | dotPitch pitch => "G8P".toList ++ Decimal.fixed pitch (places + 2)
  | runway length => "G8X".toList ++ Decimal.fixed length places
  | nextRow => "G8N".toList
  | samples data => "G8D".toList ++ Sample.text data

end Instruction

/-- The text of a program: each instruction on a line of its own. -/
def programText (places : Nat) (program : List Instruction) : List Char :=
  program.flatMap fun instruction => instruction.render places ++ ['\n']

end LaserCut.Machine
