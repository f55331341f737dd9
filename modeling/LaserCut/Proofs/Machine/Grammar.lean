/-
# The grammar of a line

A line without comments is made of tokens: a letter, a number in plain notation and
white space behind it, with more white space in front of the first token.  A line
that is not leaves this grammar at some first place, where a letter is due and another
character stands, or where the run of digits, points and signs behind a letter is no
number.

A reader takes the lines of the grammar and no others.  The proof has three parts:
the scanner goes through the tokens in front of any text one by one, it stops at a
fault with the word that shows it, and every line is in the grammar or leaves it.
-/

import Mathlib
import LaserCut.Proofs.Decimal.Notation
import LaserCut.Proofs.Machine.Idle
import LaserCut.Proofs.Machine.Word

namespace LaserCut.Machine

/-- Whether a text is nothing but white space. -/
def AllBlank (text : List Char) : Prop :=
  ∀ c ∈ text, Text.isBlank c = true

/-- A letter with a number, as they are written, and the white space behind them. -/
structure Token where
  letter : Char
  number : List Char
  blanks : List Char

namespace Token

/-- The characters of a token. -/
def text (token : Token) : List Char :=
  token.letter :: (token.number ++ token.blanks)

/-- What the parts of a token are. -/
structure IsProper (token : Token) : Prop where
  letter : token.letter.isAlpha = true
  number : Decimal.IsSigned token.number
  blanks : AllBlank token.blanks

/-- The word that a token stands for: its letter in upper case, and the double that
its number rounds to. -/
structure Denotes (token : Token) (word : Word) : Prop where
  letter : word.letter = token.letter.toUpper
  value : Decimal.IsRounded word.value (token.number.head? = some '-')
    (Decimal.sizeOf token.number)

end Token

/-- A line of the grammar, with its tokens. -/
structure IsSentence (line : List Char) (tokens : List Token) : Prop where
  proper : ∀ token ∈ tokens, token.IsProper
  text : ∃ blanks, AllBlank blanks ∧ line = blanks ++ tokens.flatMap Token.text

/-- What is wrong at a place where a letter is due, and the word that shows it. -/
inductive IsFault : List Char → List Char → Prop
  | noLetter {c : Char} {rest : List Char} (visible : Text.isBlank c = false)
      (other : c.isAlpha = false) :
      IsFault (c :: rest) ((c :: rest).takeWhile fun c => !Text.isBlank c)
  | noNumber {letter : Char} {run rest : List Char} (alpha : letter.isAlpha = true)
      (numerals : ∀ c ∈ run, isNumeral c = true)
      (ends : ∀ c ∈ rest.head?, isNumeral c = false) (wrong : ¬ Decimal.IsSigned run) :
      IsFault (letter :: (run ++ rest)) (letter :: run)

/-- A text does not go on with a number that another ends with. -/
def IsApart (front rest : List Char) : Prop :=
  ∀ last ∈ front.getLast?, isNumeral last = true → ∀ next ∈ rest.head?, isNumeral next = false

/-- A line leaves the grammar at a fault, and is in the grammar up to there. -/
def Leaves (line word : List Char) : Prop :=
  ∃ front tokens rest, IsSentence front tokens ∧ IsApart front rest ∧ IsFault rest word ∧
    line = front ++ rest

/-- The size of a text in bytes. -/
def bytesOf (text : List Char) : Nat :=
  (text.map Char.utf8Size).sum

/-- Cuts a text behind some of its bytes.  There is no cut inside a character. -/
def cutAt? : List Char → Nat → Option (List Char × List Char)
  | text, 0 => some ([], text)
  | [], _ + 1 => none
  | c :: rest, bytes + 1 =>
      if c.utf8Size ≤ bytes + 1 then
        (cutAt? rest (bytes + 1 - c.utf8Size)).map fun parts => (c :: parts.1, parts.2)
      else none

/-- Behind whole characters a text can be cut. -/
theorem cutAt?_append (front back : List Char) :
    cutAt? (front ++ back) (bytesOf front) = some (front, back) := by
  induction front with
  | nil => cases back <;> rfl
  | cons c front ih =>
      obtain ⟨bytes, size⟩ := Nat.exists_eq_succ_of_ne_zero c.utf8Size_pos.ne'
      have total : bytesOf (c :: front) = bytes + bytesOf front + 1 := by
        rw [bytesOf, List.map_cons, List.sum_cons, size, Nat.succ_eq_add_one, bytesOf]
        omega
      have left : bytes + bytesOf front + 1 - c.utf8Size = bytesOf front := by omega
      rw [total, List.cons_append, cutAt?, if_pos (by omega), left, ih]
      rfl

/-- A letter is a single byte. -/
theorem bytesOf_letter {letter : Char} (alpha : letter.isAlpha = true) : bytesOf [letter] = 1 := by
  have bounds := toNat_of_isAlpha alpha
  have small : letter.val ≤ 0x7F := UInt32.le_iff_toNat_le.mpr (by
    change letter.toNat ≤ 127
    omega)
  simp [bytesOf, Char.utf8Size, small]

/-- Digits, points and signs. -/
theorem isNumeral_iff {c : Char} :
    isNumeral c = true ↔ c.isDigit = true ∨ c = '.' ∨ c = '-' ∨ c = '+' := by
  simp [isNumeral, or_assoc]

/-- White space is no part of a number. -/
theorem isNumeral_of_isBlank {c : Char} (blank : Text.isBlank c = true) : isNumeral c = false := by
  by_contra numeral
  rw [Bool.not_eq_false, isNumeral_iff] at numeral
  rcases numeral with digit | rfl | rfl | rfl
  · have bounds := Decimal.toNat_of_isDigit digit
    simp only [Text.isBlank, Bool.or_eq_true, Bool.and_eq_true, decide_eq_true_eq,
      beq_iff_eq] at blank
    omega
  all_goals exact absurd blank (by decide)

namespace IsApart

variable {front rest : List Char}

/-- Only the end of the text in front matters. -/
theorem of_append {before : List Char} (apart : IsApart (before ++ front) rest) :
    IsApart front rest := by
  intro last found
  refine apart last ?_
  rw [List.getLast?_append, Option.mem_def.mp found]
  rfl

/-- A text in front of a nonempty one does not matter. -/
theorem append_left (apart : IsApart front rest) (nonempty : front ≠ []) (before : List Char) :
    IsApart (before ++ front) rest := by
  intro last found
  refine apart last ?_
  rwa [List.getLast?_append_of_ne_nil _ nonempty] at found

/-- White space is apart from everything. -/
theorem of_blank (blank : AllBlank front) : IsApart front rest :=
  fun last found numeral =>
    absurd numeral (by simp [isNumeral_of_isBlank (blank last (List.mem_of_getLast? found))])

/-- Nothing is a part of a number that cannot go on. -/
theorem of_ends (ends : ∀ c ∈ rest.head?, isNumeral c = false) : IsApart front rest :=
  fun _ _ _ => ends

end IsApart

/-- What follows a number in a line does not go on with it. -/
theorem ends_behind_number {number blanks rest : List Char} {tokens : List Token}
    (signed : Decimal.IsSigned number) (blank : AllBlank blanks)
    (proper : ∀ token ∈ tokens, token.IsProper)
    (apart : IsApart (number ++ (blanks ++ tokens.flatMap Token.text)) rest) :
    ∀ c ∈ (blanks ++ tokens.flatMap Token.text ++ rest).head?, isNumeral c = false := by
  intro c found
  cases blanks with
  | cons first blanks =>
      obtain rfl : first = c := by simpa using found
      exact isNumeral_of_isBlank (blank first List.mem_cons_self)
  | nil =>
      cases tokens with
      | cons token tokens =>
          obtain rfl : token.letter = c := by simpa [Token.text] using found
          exact isNumeral_of_isAlpha (proper token List.mem_cons_self).letter
      | nil =>
          obtain ⟨nonempty, numerals⟩ := signed.numerals
          have last := List.getLast?_eq_some_getLast nonempty
          refine apart _ (by simpa using last) ?_ c (by simpa using found)
          exact isNumeral_iff.mpr (numerals _ (List.getLast_mem nonempty))

/-- The tokens in front of a text are read one by one. -/
theorem wordsOf_tokens {tokens : List Token} (proper : ∀ token ∈ tokens, token.IsProper)
    (rest : List Char) : ∀ {blanks : List Char}, AllBlank blanks →
      IsApart (blanks ++ tokens.flatMap Token.text) rest →
      ∃ words, List.Forall₂ Token.Denotes tokens words ∧
        wordsOf (blanks ++ tokens.flatMap Token.text ++ rest) = (wordsOf rest).map (words ++ ·) := by
  induction tokens with
  | nil =>
      intro blanks blank apart
      refine ⟨[], .nil, ?_⟩
      rw [List.flatMap_nil, List.append_nil, wordsOf_blanks blank]
      cases wordsOf rest <;> rfl
  | cons token tokens ih =>
      intro blanks blank apart
      obtain ⟨first, others⟩ := List.forall_mem_cons.mp proper
      have whole : blanks ++ (token :: tokens).flatMap Token.text =
          (blanks ++ [token.letter]) ++
            (token.number ++ (token.blanks ++ tokens.flatMap Token.text)) := by
        simp [Token.text]
      rw [whole] at apart ⊢
      have behind := apart.of_append
      obtain ⟨words, denoted, read⟩ := ih others first.blanks behind.of_append
      obtain ⟨value, known, rounded⟩ := first.number.read?
      have ends := ends_behind_number first.number first.blanks others behind
      have numerals : ∀ c ∈ token.number, isNumeral c = true :=
        fun c inside => isNumeral_iff.mpr (first.number.numerals.2 c inside)
      refine ⟨⟨token.letter.toUpper, value⟩ :: words, .cons ⟨rfl, rounded⟩ denoted, ?_⟩
      rw [List.append_assoc, List.append_assoc, wordsOf_blanks blank, List.singleton_append,
        List.append_assoc, wordsOf_cons first.letter numerals ends, known, read]
      cases wordsOf rest <;> rfl

/-- A line of the grammar is read as the words of its tokens. -/
theorem wordsOf_sentence {line : List Char} {tokens : List Token}
    (sentence : IsSentence line tokens) :
    ∃ words, List.Forall₂ Token.Denotes tokens words ∧ wordsOf line = .ok words := by
  obtain ⟨blanks, blank, rfl⟩ := sentence.text
  obtain ⟨words, denoted, read⟩ := wordsOf_tokens sentence.proper [] blank (.of_ends (by simp))
  refine ⟨words, denoted, ?_⟩
  have nothing : wordsOf [] = .ok [] := by rw [wordsOf_eq]; rfl
  rw [List.append_nil, nothing] at read
  simpa [Except.map] using read

/-- A fault is shown by its word. -/
theorem wordsOf_fault {rest word : List Char} (fault : IsFault rest word) :
    wordsOf rest = .error word := by
  cases fault with
  | noLetter visible other =>
      rw [wordsOf_eq, trimStart_cons visible]
      simp [other]
  | @noNumber letter run rest alpha numerals ends wrong =>
      have unread : Decimal.read? run = none := by
        by_contra readable
        obtain ⟨value, read⟩ := Option.ne_none_iff_exists'.mp readable
        exact wrong (Decimal.isSigned_of_read? (fun c inside =>
          isNumeral_iff.mp (numerals c inside)) read)
      rw [wordsOf_cons alpha numerals ends, unread]

/-- A line that leaves the grammar is refused with the word of its first fault. -/
theorem wordsOf_leaves {line word : List Char} (leaves : Leaves line word) :
    wordsOf line = .error word := by
  obtain ⟨front, tokens, rest, sentence, apart, fault, rfl⟩ := leaves
  obtain ⟨blanks, blank, rfl⟩ := sentence.text
  obtain ⟨words, -, read⟩ := wordsOf_tokens sentence.proper rest blank apart
  rw [read, wordsOf_fault fault]
  rfl

/-- A token in front of a line of the grammar gives another one. -/
theorem IsSentence.cons {blanks number line : List Char} {letter : Char} {tokens : List Token}
    (blank : AllBlank blanks) (alpha : letter.isAlpha = true) (signed : Decimal.IsSigned number)
    (sentence : IsSentence line tokens) :
    ∃ more, IsSentence (blanks ++ letter :: (number ++ line)) more := by
  obtain ⟨behind, blankBehind, rfl⟩ := sentence.text
  refine ⟨⟨letter, number, behind⟩ :: tokens, ?_, blanks, blank, ?_⟩
  · exact List.forall_mem_cons.mpr ⟨⟨alpha, signed, blankBehind⟩, sentence.proper⟩
  · simp [Token.text]

/-- A text has a run of some kind in front, and goes on with another character. -/
theorem exists_run (kind : Char → Bool) (text : List Char) :
    ∃ run rest, text = run ++ rest ∧ (∀ c ∈ run, kind c = true) ∧
      ∀ c ∈ rest.head?, kind c = false := by
  refine ⟨text.takeWhile kind, text.dropWhile kind, List.takeWhile_append_dropWhile.symm,
    fun c => List.mem_takeWhile_imp, fun c found => ?_⟩
  have head := List.head?_dropWhile_not kind text
  rw [Option.mem_def.mp found] at head
  exact head

/-- Every line is in the grammar or leaves it. -/
theorem sentence_or_leaves (line : List Char) :
    (∃ tokens, IsSentence line tokens) ∨ ∃ word, Leaves line word := by
  induction size : line.length using Nat.strong_induction_on generalizing line with
  | _ length ih =>
      obtain ⟨blanks, shown, rfl, blank, visible⟩ := exists_run Text.isBlank line
      have empty : IsSentence blanks [] := ⟨by simp, blanks, blank, by simp⟩
      cases shown with
      | nil => exact .inl ⟨[], by rwa [List.append_nil]⟩
      | cons letter rest =>
          have first (word : List Char) (fault : IsFault (letter :: rest) word) :
              Leaves (blanks ++ letter :: rest) word :=
            ⟨blanks, [], _, empty, .of_blank blank, fault, rfl⟩
          cases alpha : letter.isAlpha with
          | false => exact .inr ⟨_, first _ (.noLetter (visible letter rfl) alpha)⟩
          | true =>
              obtain ⟨run, after, rfl, numerals, ends⟩ := exists_run isNumeral rest
              by_cases signed : Decimal.IsSigned run
              · have shorter : after.length < length := by
                  rw [← size]
                  simp only [List.length_append, List.length_cons]
                  omega
                rcases ih _ shorter after rfl with ⟨tokens, sentence⟩ |
                  ⟨word, front, tokens, rest, sentence, apart, fault, rfl⟩
                · exact .inl (sentence.cons blank alpha signed)
                · obtain ⟨more, longer⟩ := sentence.cons blank alpha signed
                  refine .inr ⟨word, _, more, rest, longer, ?_, fault, by simp⟩
                  -- the number is whole, or the front goes on behind it
                  by_cases nothing : front = []
                  · exact .of_ends (by simpa [nothing] using ends)
                  · simpa using apart.append_left nothing (blanks ++ letter :: run)
              · exact .inr ⟨_, first _ (.noNumber alpha numerals ends signed)⟩

/-- The lines without comments that are read. -/
theorem exists_wordsOf_iff {line : List Char} :
    (∃ words, wordsOf line = .ok words) ↔ ∃ tokens, IsSentence line tokens := by
  constructor
  · rintro ⟨words, read⟩
    refine (sentence_or_leaves line).resolve_right ?_
    rintro ⟨word, leaves⟩
    rw [wordsOf_leaves leaves] at read
    cases read
  · rintro ⟨tokens, sentence⟩
    obtain ⟨words, -, read⟩ := wordsOf_sentence sentence
    exact ⟨words, read⟩

/-- The lines without comments that are refused, and the words that are shown. -/
theorem wordsOf_eq_error_iff {line word : List Char} :
    wordsOf line = .error word ↔ Leaves line word := by
  refine ⟨fun refused => ?_, wordsOf_leaves⟩
  rcases sentence_or_leaves line with ⟨tokens, sentence⟩ | ⟨other, leaves⟩
  · obtain ⟨words, -, read⟩ := wordsOf_sentence sentence
    rw [refused] at read
    cases read
  · rw [wordsOf_leaves leaves] at refused
    rwa [← Except.error.inj refused]

/-- Whether a line is read: it belongs to a raster, or what is left of it without its
comments is in the grammar. -/
def IsReadable (line : List Char) : Prop :=
  isRasterLine line = true ∨ ∃ tokens, IsSentence (removeComments line) tokens

/-- The lines that are read. -/
theorem exists_lineWords_iff {line : List Char} :
    (∃ words, lineWords line = .ok words) ↔ IsReadable line := by
  rw [IsReadable, ← exists_wordsOf_iff, lineWords]
  cases isRasterLine line <;> simp

/-- The lines that are refused, and the words that are shown. -/
theorem lineWords_eq_error_iff {line word : List Char} :
    lineWords line = .error word ↔
      isRasterLine line = false ∧ Leaves (removeComments line) word := by
  rw [← wordsOf_eq_error_iff, lineWords]
  cases isRasterLine line <;> simp

namespace Reader

/-- A reader counts all lines that it is fed. -/
theorem line_feed (reader : Reader) (lines : List (List Char)) :
    (reader.feed lines).line = reader.line + lines.length := by
  induction lines generalizing reader with
  | nil => rfl
  | cons line lines ih =>
      rw [feed, List.foldl_cons, ← feed, ih, line_read, List.length_cons]
      omega

/-- Lines are read to their end if every one of them is read. -/
theorem exists_readLines_iff (lines : List (List Char)) :
    ∀ {reader : Reader},
      (∃ next, reader.readLines lines = .ok next) ↔ ∀ line ∈ lines, IsReadable line := by
  induction lines with
  | nil => simp [readLines]
  | cons line lines ih =>
      intro reader
      rw [readLines, read_eq, List.forall_mem_cons, ← exists_lineWords_iff]
      cases lineWords line with
      | error word => simp
      | ok words =>
          change (∃ next, readLines _ lines = .ok next) ↔ _
          simp [ih]

/-- Lines are read up to the first one that is refused, and the answer shows where it is. -/
theorem readLines_of_fault {line word : List Char} (refused : lineWords line = .error word)
    {front : List (List Char)} (back : List (List Char)) :
    ∀ {reader : Reader}, (∀ earlier ∈ front, IsReadable earlier) →
      reader.readLines (front ++ line :: back) =
        .error ⟨reader.line + front.length + 1, .ofList word⟩ := by
  induction front with
  | nil =>
      intro reader _
      rw [List.nil_append, readLines, read_eq, refused]
      rfl
  | cons earlier front ih =>
      intro reader readable
      obtain ⟨first, others⟩ := List.forall_mem_cons.mp readable
      obtain ⟨words, known⟩ := exists_lineWords_iff.mpr first
      rw [List.cons_append, readLines, read_eq, known]
      refine (ih others).trans ?_
      rw [line_withLine, List.length_cons, ← Nat.add_assoc, Nat.add_right_comm reader.line 1]

/-- Some line is the first one that is refused if not all lines are read. -/
theorem readable_or_fault (lines : List (List Char)) :
    (∀ line ∈ lines, IsReadable line) ∨
      ∃ front line back word, lines = front ++ line :: back ∧
        (∀ earlier ∈ front, IsReadable earlier) ∧ lineWords line = .error word := by
  induction lines with
  | nil => exact .inl (List.forall_mem_nil _)
  | cons line lines ih =>
      cases known : lineWords line with
      | error word => exact .inr ⟨[], line, lines, word, rfl, List.forall_mem_nil _, known⟩
      | ok words =>
          have readable : IsReadable line := exists_lineWords_iff.mp ⟨words, known⟩
          rcases ih with all | ⟨front, other, back, word, rfl, others, refused⟩
          · exact .inl (List.forall_mem_cons.mpr ⟨readable, all⟩)
          · exact .inr ⟨line :: front, other, back, word, rfl,
              List.forall_mem_cons.mpr ⟨readable, others⟩, refused⟩

/-- The first line that is refused ends a program. -/
theorem readLines_eq_error_iff {lines : List (List Char)} {reader : Reader} {fault : InvalidWord} :
    reader.readLines lines = .error fault ↔
      ∃ front line back word, lines = front ++ line :: back ∧
        (∀ earlier ∈ front, IsReadable earlier) ∧ lineWords line = .error word ∧
        fault = ⟨reader.line + front.length + 1, .ofList word⟩ := by
  constructor
  · intro refused
    rcases readable_or_fault lines with all | ⟨front, line, back, word, rfl, readable, known⟩
    · obtain ⟨next, taken⟩ := (exists_readLines_iff lines).mpr all
      rw [refused] at taken
      cases taken
    · rw [readLines_of_fault known back readable] at refused
      exact ⟨front, line, back, word, rfl, readable, known, (Except.error.inj refused).symm⟩
  · rintro ⟨front, line, back, word, rfl, readable, known, rfl⟩
    exact readLines_of_fault known back readable

/-- After any lines, refused ones among them, a line that belongs to no raster is read
exactly when it is in the grammar without its comments.  Its words are then those of
its tokens, each with the double that its number rounds to, and they are obeyed.  If
it is refused, the answer shows its number among all lines and the word of its first
fault.  A letter is one byte and a run behind it is whole characters, so no cut falls
inside a character.  A program is read if all of its lines are, and otherwise the answer is
about the first one that is not. -/
theorem reads_exactly_grammar (lines : List (List Char)) {line : List Char}
    (other : isRasterLine line = false) :
    (((start.feed lines).read line).2 = .ok () ↔
        ∃ tokens, IsSentence (removeComments line) tokens) ∧
      (∀ tokens, IsSentence (removeComments line) tokens →
        ∃ words, List.Forall₂ Token.Denotes tokens words ∧
          wordsOf (removeComments line) = .ok words ∧
          ((start.feed lines).read line).1 =
            ((start.feed lines).obey words).withLine (lines.length + 1)) ∧
      (∀ fault, ((start.feed lines).read line).2 = .error fault ↔
        ∃ word, Leaves (removeComments line) word ∧
          fault = ⟨lines.length + 1, .ofList word⟩) ∧
      (∀ letter body, letter.isAlpha = true →
        cutAt? (letter :: body) 1 = some ([letter], body) ∧
          cutAt? body (bytesOf (body.takeWhile isNumeral)) =
            some (body.takeWhile isNumeral, body.dropWhile isNumeral)) ∧
      ∀ text,
        ((∃ drawing, readProgram text = .ok drawing) ↔
          ∀ line ∈ Text.lines text.toList, IsReadable line) ∧
        ∀ fault, readProgram text = .error fault ↔
          ∃ front line back word, Text.lines text.toList = front ++ line :: back ∧
            (∀ earlier ∈ front, IsReadable earlier) ∧ isRasterLine line = false ∧
            Leaves (removeComments line) word ∧ fault = ⟨front.length + 1, .ofList word⟩ := by
  have count : (start.feed lines).line = lines.length := by
    rw [line_feed]
    exact Nat.zero_add _
  have plain : lineWords line = wordsOf (removeComments line) := by
    rw [lineWords, other]
    rfl
  have answer := read_eq (start.feed lines) line
  rw [plain, count] at answer
  refine ⟨?_, ?_, ?_, ?_, fun text => ⟨?_, ?_⟩⟩
  · rw [← exists_wordsOf_iff, answer]
    cases wordsOf (removeComments line) <;> simp
  · intro tokens sentence
    obtain ⟨words, denoted, read⟩ := wordsOf_sentence sentence
    refine ⟨words, denoted, read, ?_⟩
    rw [answer, read]
  · intro fault
    simp only [← wordsOf_eq_error_iff]
    rw [answer]
    cases wordsOf (removeComments line) <;> simp [eq_comm]
  · intro letter body alpha
    have first := cutAt?_append [letter] body
    have run := cutAt?_append (body.takeWhile isNumeral) (body.dropWhile isNumeral)
    rw [bytesOf_letter alpha] at first
    rw [List.takeWhile_append_dropWhile] at run
    exact ⟨first, run⟩
  · rw [← @exists_readLines_iff (Text.lines text.toList) start, readProgram]
    cases start.readLines (Text.lines text.toList) <;> simp [Except.map]
  · intro fault
    have refused := @readLines_eq_error_iff (Text.lines text.toList) start fault
    simp only [lineWords_eq_error_iff, and_assoc] at refused
    rw [readProgram, Attempt.map_eq_error_iff, refused]
    simp [start]

/-- A sign inside a number is refused, on the second line. -/
theorem reads_exactly_grammar_sign_inside :
    isRasterLine ['X', '1', '-', '2'] = false ∧
      ((start.feed [['M', '3']]).read ['X', '1', '-', '2']).2 = .error ⟨2, "X1-2"⟩ := by
  have other : isRasterLine ['X', '1', '-', '2'] = false := by decide
  have whole : removeComments ['X', '1', '-', '2'] = ['X', '1', '-', '2'] :=
    removeComments_of_plain (by simp)
  have wrong : ¬ Decimal.IsSigned ['1', '-', '2'] := by
    intro signed
    cases signed with
    | plain pointed => exact absurd (pointed.marks '-' (by simp)) (by decide)
  have fault : IsFault ('X' :: (['1', '-', '2'] ++ [])) ('X' :: ['1', '-', '2']) :=
    .noNumber (by decide) (by simp [isNumeral]) (by simp) wrong
  have leaves : Leaves ['X', '1', '-', '2'] ['X', '1', '-', '2'] :=
    ⟨[], [], _, ⟨by simp, [], by simp [AllBlank], rfl⟩, .of_blank (by simp [AllBlank]), fault, rfl⟩
  refine ⟨other, ((reads_exactly_grammar [['M', '3']] other).2.2.1 _).mpr ⟨_, ?_, rfl⟩⟩
  rwa [whole]

end Reader

end LaserCut.Machine
