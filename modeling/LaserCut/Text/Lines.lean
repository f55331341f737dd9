/-
# Lines of a text

A line ends at a line feed, and a carriage return right before it belongs to
the ending.  A line feed at the very end of the text opens no further line.
-/

namespace LaserCut.Text

/-- Puts a character in front of the pieces that follow it. -/
def pushChar (c : Char) (pieces : List (List Char)) : List (List Char) :=
  if c = '\n' then [] :: pieces
  else
    match pieces with
    | line :: more => (c :: line) :: more
    | [] => [[c]]

/-- The pieces of a text between its line feeds. -/
def splitLines (text : List Char) : List (List Char) :=
  text.foldr pushChar [[]]

/-- A line without a carriage return at its end. -/
def dropReturn (line : List Char) : List Char :=
  if line.getLast? = some '\r' then line.dropLast else line

/-- The lines of a text. -/
def lines (text : List Char) : List (List Char) :=
  let pieces := splitLines text
  let ended := pieces.dropLast.map dropReturn
  match pieces.getLast? with
  | none => ended
  | some last => if last.isEmpty then ended else ended ++ [last]

end LaserCut.Text
