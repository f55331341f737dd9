/-
# Reading a machine program

A reader keeps what earlier lines have set: the kind of motion, how coordinates
count, the position and the rates.  A seek ends the current stroke; a feed
extends it, and opens one at the current position if there is none.

A line whose words cannot be read changes nothing but the line count.
-/

import LaserCut.Geometry.Point
import LaserCut.Machine.Limits
import LaserCut.Machine.Word
import LaserCut.Text.Lines

namespace LaserCut.Machine

/-- How the head moves. -/
inductive Motion
  | seek
  | feed
  deriving DecidableEq

/-- What a program describes. -/
structure Drawing where
  paths : List (Path Float)
  /-- The feedrate at the last feed. -/
  feedrate : Option Float
  /-- The power at the last feed, from 0 to 255. -/
  power : Option Float
  deriving DecidableEq

/-- A line that cannot be read. -/
structure InvalidWord where
  line : Nat
  word : String
  deriving DecidableEq

/-- The text about a line that cannot be read. -/
def InvalidWord.message (fault : InvalidWord) : String :=
  "Invalid word '" ++ fault.word ++ "' on line " ++ toString fault.line

/-- What has been read so far. -/
structure Reader where
  /-- The number of lines seen. -/
  line : Nat
  absolute : Bool
  motion : Motion
  position : Point Float
  feedrate : Option Float
  power : Option Float
  /-- The points of the current stroke; no points mean no stroke. -/
  current : Array (Point Float)
  /-- The strokes that have ended. -/
  strokes : Array (Path Float)
  /-- The rates at the last feed. -/
  drawnFeedrate : Option Float
  drawnPower : Option Float

namespace Reader

/-- The reader before the first line. -/
def start : Reader where
  line := 0
  absolute := true
  motion := .seek
  position := .origin
  feedrate := none
  power := none
  current := #[]
  strokes := #[]
  drawnFeedrate := none
  drawnPower := none

/-- Ends the current stroke. -/
def endStroke (reader : Reader) : Reader :=
  if reader.current.isEmpty then reader
  else { reader with current := #[], strokes := reader.strokes.push reader.current.toList }

/-- Sets what a single word sets for the lines to come: the kind of motion, how
coordinates count, and the power. -/
def setMode (reader : Reader) (word : Word) : Reader :=
  if word.letter = 'S' then { reader with power := some word.value }
  else if word.letter = 'G' then
    match Decimal.whole? word.value with
    | some 0 => { reader with motion := .seek }
    | some 1 => { reader with motion := .feed }
    | some 90 => { reader with absolute := true }
    | some 91 => { reader with absolute := false }
    | _ => reader
  else reader

/-- Sets the feedrate, which a line of a seek leaves alone. -/
def setRate (reader : Reader) (rate : Option Float) : Reader :=
  if rate.isSome ∧ reader.motion = .feed then { reader with feedrate := rate } else reader

/-- Where a line leads, from the axes that it names. -/
def target (reader : Reader) (x y : Option Float) : Point Float :=
  if reader.absolute then ⟨x.getD reader.position.x, y.getD reader.position.y⟩
  else ⟨reader.position.x + x.getD 0.0, reader.position.y + y.getD 0.0⟩

/-- Moves the head. -/
def moveTo (reader : Reader) (point : Point Float) : Reader :=
  match reader.motion with
  | .seek => { reader.endStroke with position := point }
  | .feed =>
      let points := if reader.current.isEmpty then #[reader.position] else reader.current
      { reader with
        current := points.push point
        drawnFeedrate := reader.feedrate
        drawnPower := reader.power
        position := point }

/-- The value of the last word with a letter. -/
def lastValue? (letter : Char) (words : List Word) : Option Float :=
  (words.reverse.find? fun word => word.letter = letter).map Word.value

/-- Obeys the words of one line: modes in their order, then the rate, then the
move if an axis is named. -/
def obey (reader : Reader) (words : List Word) : Reader :=
  let reader := (words.foldl setMode reader).setRate (lastValue? 'F' words)
  let x := lastValue? 'X' words
  let y := lastValue? 'Y' words
  if x.isSome ∨ y.isSome then reader.moveTo (reader.target x y) else reader

/-- Reads the next line. -/
def read (reader : Reader) (line : List Char) : Reader × Except InvalidWord Unit :=
  let counted := { reader with line := reader.line + 1 }
  match lineWords line with
  | .ok words => (counted.obey words, .ok ())
  | .error word => (counted, .error ⟨counted.line, String.ofList word⟩)

/-- What the lines so far describe, the current stroke included. -/
def drawing (reader : Reader) : Drawing :=
  ⟨reader.endStroke.strokes.toList, reader.drawnFeedrate, reader.drawnPower⟩

/-- Reads lines up to the first one that cannot be read. -/
def readLines (reader : Reader) : List (List Char) → Except InvalidWord Reader
  | [] => .ok reader
  | line :: rest =>
      match reader.read line with
      | (next, .ok ()) => next.readLines rest
      | (_, .error fault) => .error fault

end Reader

/-- What a whole program describes. -/
def readProgram (text : String) : Except InvalidWord Drawing :=
  (Reader.start.readLines (Text.lines text.toList)).map Reader.drawing

end LaserCut.Machine
