/-
# Words of a program line

A word is a letter with a number.  Words may follow each other with or without
white space, and comments are taken out before words are read.
-/

import LaserCut.Decimal.Reader
import LaserCut.Text.Blank

namespace LaserCut.Machine

/-- A letter, in upper case, with a number. -/
structure Word where
  letter : Char
  value : Float
  deriving DecidableEq

/-- Whether a line belongs to a raster.  Its data may look like anything, so
it is never read as words. -/
def isRasterLine (line : List Char) : Bool :=
  match Text.trimStart line with
  | c :: rest => (c == 'G' || c == 'g') && Decimal.valueOf (rest.takeWhile Char.isDigit) == 8
  | [] => false

/-- A line without its comments: a parenthesis up to the next closing one, and
a semicolon with the rest of the line.  A parenthesis that nothing closes is
kept. -/
def removeComments : List Char → List Char
  | [] => []
  | c :: rest =>
      if c = ';' then removeComments (rest.dropWhile (· != '\n'))
      else if c = '(' then
        match _closed : rest.dropWhile (· != ')') with
        | [] => c :: removeComments rest
        | _ :: after => removeComments after
      else c :: removeComments rest
termination_by line => line.length
decreasing_by
  · have shorter := (List.dropWhile_suffix (· != '\n') (l := rest)).length_le
    exact Nat.lt_succ_of_le shorter
  · exact Nat.lt_succ_self _
  · have shorter := (List.dropWhile_suffix (· != ')') (l := rest)).length_le
    rw [_closed] at shorter
    exact Nat.lt_succ_of_lt shorter
  · exact Nat.lt_succ_self _

/-- The characters of which numbers are made. -/
def isNumeral (c : Char) : Bool :=
  c.isDigit || c == '.' || c == '-' || c == '+'

/-- White space in front takes nothing but length away. -/
theorem length_trimStart_le (text : List Char) :
    (Text.trimStart text).length ≤ text.length :=
  (List.dropWhile_suffix _).length_le

/-- Reads the words of a line without comments.  A failure shows the text up to
white space where a letter is missing, or the letter with what follows it in
place of a number. -/
def wordsOf (line : List Char) : Except (List Char) (List Word) :=
  match _trimmed : Text.trimStart line with
  | [] => .ok []
  | letter :: rest =>
      if !letter.isAlpha then
        .error ((letter :: rest).takeWhile fun c => !Text.isBlank c)
      else
        let number := rest.takeWhile isNumeral
        match Decimal.read? number with
        | none => .error (letter :: number)
        | some value =>
            (wordsOf (rest.dropWhile isNumeral)).map (⟨letter.toUpper, value⟩ :: ·)
termination_by line.length
decreasing_by
  have shorter := length_trimStart_le line
  have dropped := (List.dropWhile_suffix isNumeral (l := rest)).length_le
  rw [_trimmed, List.length_cons] at shorter
  omega

/-- The words of any line.  A raster line has none. -/
def lineWords (line : List Char) : Except (List Char) (List Word) :=
  if isRasterLine line then .ok [] else wordsOf (removeComments line)

end LaserCut.Machine
