/-
# Words that are written and read

A word is written as its letter and a number that reads back.  A line of such
words has no comment and no blank in it, so the words that are read from it are
those that were written, as long as it does not look like a raster line.
-/

import Mathlib
import LaserCut.Machine.Word
import LaserCut.Proofs.Decimal.Layout
import LaserCut.Proofs.Decimal.Reading

namespace LaserCut.Machine

/-- The letters of the words that a program is made of. -/
def commandLetters : List Char :=
  ['F', 'G', 'M', 'S', 'X', 'Y']

/-- A text is a word as a program has it: a letter and a number that reads as
the value of the word. -/
structure IsWritten (text : List Char) (word : Word) : Prop where
  letter : word.letter ∈ commandLetters
  head : text.head? = some word.letter
  numerals : ∀ c ∈ text.tail, isNumeral c = true
  reads : Decimal.read? text.tail = some word.value

/-- The letters of words are letters in upper case.  They are neither blank nor
part of a number, and no comment starts with one. -/
theorem commandLetters_spec :
    ∀ c ∈ commandLetters, c.isAlpha = true ∧ c.toUpper = c ∧ isNumeral c = false ∧
      Text.isBlank c = false ∧ c ≠ ';' ∧ c ≠ '(' := by
  simp only [commandLetters, List.forall_mem_cons, List.not_mem_nil, false_implies, implies_true]
  decide

/-- A written word is its letter followed by its number. -/
theorem IsWritten.eq_cons {text : List Char} {word : Word} (written : IsWritten text word) :
    text = word.letter :: text.tail :=
  List.eq_cons_of_mem_head? written.head

/-- Written words that follow each other start with a letter or not at all. -/
theorem head_flatten_of_written {texts : List (List Char)} {words : List Word}
    (written : List.Forall₂ IsWritten texts words) :
    ∀ c ∈ texts.flatten.head?, isNumeral c = false := by
  cases written with
  | nil => simp
  | @cons text word texts words first rest =>
      intro c found
      rw [List.flatten_cons, first.eq_cons, List.cons_append, List.head?_cons] at found
      rw [← Option.some.inj found]
      exact (commandLetters_spec _ first.letter).2.2.1

/-- A run of characters is taken whole in front of one that is not of its kind. -/
theorem takeWhile_dropWhile_run {kind : Char → Bool} {run rest : List Char}
    (all : ∀ c ∈ run, kind c = true) (ends : ∀ c ∈ rest.head?, kind c = false) :
    (run ++ rest).takeWhile kind = run ∧ (run ++ rest).dropWhile kind = rest := by
  rw [List.takeWhile_append_of_pos all, List.dropWhile_append_of_pos all]
  cases rest with
  | nil => simp
  | cons c more => simp [ends c rfl]

/-- White space in front of a line does not count. -/
theorem trimStart_append {blanks : List Char} (blank : ∀ c ∈ blanks, Text.isBlank c = true)
    (rest : List Char) : Text.trimStart (blanks ++ rest) = Text.trimStart rest :=
  List.dropWhile_append_of_pos blank

/-- White space is all that is taken from the front of a line. -/
theorem trimStart_cons {c : Char} (visible : Text.isBlank c = false) (rest : List Char) :
    Text.trimStart (c :: rest) = c :: rest :=
  List.dropWhile_cons_of_neg (by simp [visible])

/-- The words of a line from its first visible character on. -/
theorem wordsOf_eq (line : List Char) :
    wordsOf line =
      match Text.trimStart line with
      | [] => .ok []
      | letter :: rest =>
          if !letter.isAlpha then
            .error ((letter :: rest).takeWhile fun c => !Text.isBlank c)
          else
            match Decimal.read? (rest.takeWhile isNumeral) with
            | none => .error (letter :: rest.takeWhile isNumeral)
            | some value =>
                (wordsOf (rest.dropWhile isNumeral)).map (⟨letter.toUpper, value⟩ :: ·) := by
  rw [wordsOf]
  split
  · next known => rw [known]
  · next known =>
      rewrite [known]
      rfl

/-- White space in front of a line changes nothing in its words. -/
theorem wordsOf_blanks {blanks : List Char} (blank : ∀ c ∈ blanks, Text.isBlank c = true)
    (rest : List Char) : wordsOf (blanks ++ rest) = wordsOf rest := by
  rw [wordsOf_eq, trimStart_append blank, ← wordsOf_eq]

/-- The characters of letters are in two runs. -/
theorem toNat_of_isAlpha {c : Char} (alpha : c.isAlpha = true) :
    65 ≤ c.toNat ∧ c.toNat ≤ 90 ∨ 97 ≤ c.toNat ∧ c.toNat ≤ 122 := by
  simpa [Char.isAlpha, Char.isUpper, Char.isLower, UInt32.le_iff_toNat_le] using alpha

/-- Letters are visible. -/
theorem isBlank_of_isAlpha {c : Char} (alpha : c.isAlpha = true) : Text.isBlank c = false := by
  have bounds := toNat_of_isAlpha alpha
  simp only [Text.isBlank, Bool.or_eq_false_iff, Bool.and_eq_false_iff, decide_eq_false_iff_not,
    beq_eq_false_iff_ne]
  omega

/-- Letters are no part of a number. -/
theorem isNumeral_of_isAlpha {c : Char} (alpha : c.isAlpha = true) : isNumeral c = false := by
  have bounds := toNat_of_isAlpha alpha
  have digit : c.isDigit = false := by
    by_contra digit
    have digits := Decimal.toNat_of_isDigit (by simpa using digit)
    omega
  have other (mark : Char) (below : mark.toNat < 65) : c ≠ mark := by
    rintro rfl
    omega
  simp [isNumeral, digit, other '.' (by decide), other '-' (by decide), other '+' (by decide)]

/-- What a letter comes to with the run of digits, points and signs behind it. -/
theorem wordsOf_cons {letter : Char} {run rest : List Char} (alpha : letter.isAlpha = true)
    (numerals : ∀ c ∈ run, isNumeral c = true) (ends : ∀ c ∈ rest.head?, isNumeral c = false) :
    wordsOf (letter :: (run ++ rest)) =
      match Decimal.read? run with
      | none => .error (letter :: run)
      | some value => (wordsOf rest).map (⟨letter.toUpper, value⟩ :: ·) := by
  obtain ⟨taken, dropped⟩ := takeWhile_dropWhile_run numerals ends
  rw [wordsOf_eq, trimStart_cons (isBlank_of_isAlpha alpha)]
  simp only [alpha, Bool.not_true, Bool.false_eq_true, if_false, taken, dropped]

/-- A written word is read in front of whatever its number cannot go on with. -/
theorem wordsOf_append {text rest : List Char} {word : Word} (written : IsWritten text word)
    (ends : ∀ c ∈ rest.head?, isNumeral c = false) :
    wordsOf (text ++ rest) = (wordsOf rest).map (word :: ·) := by
  obtain ⟨alpha, upper, -⟩ := commandLetters_spec _ written.letter
  rw [written.eq_cons, List.cons_append, wordsOf_cons alpha written.numerals ends, written.reads,
    upper]

/-- Written words are read one after the other, without blanks between them. -/
theorem wordsOf_written {texts : List (List Char)} {words : List Word}
    (written : List.Forall₂ IsWritten texts words) : wordsOf texts.flatten = .ok words := by
  induction written with
  | nil => rw [List.flatten_nil, wordsOf]; rfl
  | cons first rest ih =>
      rw [List.flatten_cons, wordsOf_append first (head_flatten_of_written rest), ih]
      rfl

/-- A letter that no number follows is refused. -/
theorem wordsOf_letter {letter : Char} (known : letter ∈ commandLetters) {rest : List Char}
    (ends : ∀ c ∈ rest.head?, isNumeral c = false) : wordsOf (letter :: rest) = .error [letter] := by
  obtain ⟨alpha, -⟩ := commandLetters_spec _ known
  have nothing : Decimal.read? [] = none := by decide
  have bare := wordsOf_cons alpha (List.forall_mem_nil _) ends
  rwa [nothing] at bare

/-- A line without semicolons and parentheses has no comment. -/
theorem removeComments_of_plain {line : List Char} (plain : ∀ c ∈ line, c ≠ ';' ∧ c ≠ '(') :
    removeComments line = line := by
  induction line with
  | nil => rw [removeComments]
  | cons c line ih =>
      obtain ⟨⟨semicolon, parenthesis⟩, others⟩ := List.forall_mem_cons.mp plain
      rw [removeComments, if_neg semicolon, if_neg parenthesis, ih others]

/-- Neither letters of words nor numerals open a comment. -/
theorem plain_of_written {texts : List (List Char)} {words : List Word}
    (written : List.Forall₂ IsWritten texts words) :
    ∀ c ∈ texts.flatten, c ≠ ';' ∧ c ≠ '(' := by
  induction written with
  | nil => simp
  | @cons text word texts words first rest ih =>
      intro c inside
      rw [List.flatten_cons, first.eq_cons, List.cons_append, List.mem_cons,
        List.mem_append] at inside
      rcases inside with rfl | number | later
      · exact (commandLetters_spec _ first.letter).2.2.2.2
      · have numeral := first.numerals c number
        constructor <;> rintro rfl <;> exact absurd numeral (by decide)
      · exact ih c later

/-- A raster line starts with the digits of an eight behind its letter. -/
theorem isRasterLine_of_digits {digits rest : List Char} (digital : Decimal.AllDigits digits)
    (ends : ∀ c ∈ rest.head?, c.isDigit = false) :
    isRasterLine ('G' :: (digits ++ rest)) = (Decimal.valueOf digits == 8) := by
  have taken := (takeWhile_dropWhile_run digital ends).1
  have trimmed : Text.trimStart ('G' :: (digits ++ rest)) = 'G' :: (digits ++ rest) := by
    rfl
  rw [isRasterLine, trimmed]
  simp only [taken]
  rfl

/-- The words of a written line that is no raster line. -/
theorem lineWords_written {texts : List (List Char)} {words : List Word}
    (written : List.Forall₂ IsWritten texts words)
    (other : isRasterLine texts.flatten = false) : lineWords texts.flatten = .ok words := by
  rw [lineWords, other, removeComments_of_plain (plain_of_written written),
    wordsOf_written written]
  rfl

end LaserCut.Machine
