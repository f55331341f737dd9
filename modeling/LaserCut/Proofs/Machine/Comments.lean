/-
# Comments

A line consists of parts that are kept and of comments between them.  A comment goes
from a parenthesis to the next closing one, or from a semicolon to the end of the line,
and a part that is kept has neither a semicolon nor a parenthesis that something later
in the line closes.  A line has only one such division, and what is kept of it can be
put together without making a comment anew: a part in front of a closed comment has no
parenthesis, and no later part has one that is closed.

The same is removed by a pattern that is searched for from the left, with alternatives
that are tried in their order and runs that are as long as possible.
-/

import Mathlib
import LaserCut.Machine.Word

namespace LaserCut

namespace Text

/-- A pattern of characters: one that is accepted, as many as possible that are, one
pattern behind another, or one of two with the first preferred. -/
inductive Pattern
  | one (accepts : Char → Bool)
  | many (accepts : Char → Bool)
  | behind (first second : Pattern)
  | either (first second : Pattern)

namespace Pattern

/-- What can be left of a text behind characters that are accepted, the longest run of
them first. -/
def restsOfMany (accepts : Char → Bool) : List Char → List (List Char)
  | [] => [[]]
  | c :: rest =>
      if accepts c then restsOfMany accepts rest ++ [c :: rest] else [c :: rest]

/-- What can be left of a text behind a match at its front, in the order in which matches
are tried. -/
def rests : Pattern → List Char → List (List Char)
  | one _, [] => []
  | one accepts, c :: rest => if accepts c then [rest] else []
  | many accepts, text => restsOfMany accepts text
  | behind first second, text => (first.rests text).flatMap second.rests
  | either first second, text => first.rests text ++ second.rests text

/-- A text without its matches, each of which is the first one that is found behind the one
before.  An empty match removes nothing. -/
def removeAll (pattern : Pattern) : List Char → List Char
  | [] => []
  | c :: rest =>
      match (pattern.rests (c :: rest)).head? with
      | some after =>
          if after.length ≤ rest.length then pattern.removeAll after
          else c :: pattern.removeAll rest
      | none => c :: pattern.removeAll rest
termination_by text => text.length

variable {pattern : Pattern} {accepts : Char → Bool}

/-- The longest run is preferred. -/
theorem head?_restsOfMany (accepts : Char → Bool) (text : List Char) :
    (restsOfMany accepts text).head? = some (text.dropWhile accepts) := by
  induction text with
  | nil => rfl
  | cons c rest ih =>
      rw [restsOfMany, List.dropWhile_cons]
      split_ifs
      · rw [List.head?_append, ih, Option.some_or]
      · rfl

/-- What cannot follow in front of a character that is accepted follows the longest run, or
nothing does. -/
theorem flatMap_restsOfMany {next : List Char → List (List Char)}
    (stops : ∀ c rest, accepts c = true → next (c :: rest) = []) (text : List Char) :
    (restsOfMany accepts text).flatMap next = next (text.dropWhile accepts) := by
  induction text with
  | nil => exact List.append_nil _
  | cons c rest ih =>
      rw [restsOfMany, List.dropWhile_cons]
      split_ifs with accepted
      · rw [List.flatMap_append, ih, List.flatMap_singleton, stops c rest accepted,
          List.append_nil]
      · exact List.append_nil _

/-- The first match is removed if there is a character in it. -/
theorem removeAll_of_match {c : Char} {rest after : List Char}
    (found : (pattern.rests (c :: rest)).head? = some after)
    (shorter : after.length ≤ rest.length) :
    pattern.removeAll (c :: rest) = pattern.removeAll after := by
  rw [removeAll, found]
  exact if_pos shorter

/-- A character at which no match starts is kept. -/
theorem removeAll_of_none {c : Char} {rest : List Char}
    (unmatched : pattern.rests (c :: rest) = []) :
    pattern.removeAll (c :: rest) = c :: pattern.removeAll rest := by
  rw [removeAll, unmatched]
  rfl

end Pattern

end Text

namespace Machine

open Text (Pattern)

/-- A parenthesis up to the next closing one, or else a semicolon with the rest of its
line. -/
def commentPattern : Pattern :=
  .either
    (.behind (.one (· == '(')) (.behind (.many (· != ')')) (.one (· == ')'))))
    (.behind (.one (· == ';')) (.many (· != '\n')))

/-- Whether no comment starts in a part of a line that has `behind` after it. -/
structure IsPlain (part behind : List Char) : Prop where
  noSemicolon : ';' ∉ part
  notClosed : ∀ front back, part = front ++ '(' :: back → ')' ∉ back ++ behind

/-- What a line is without its comments. -/
inductive IsStripped : List Char → List Char → Prop
  | plain {part : List Char} (plain : IsPlain part []) : IsStripped part part
  | ending {part comment : List Char} (plain : IsPlain part (';' :: comment)) :
      IsStripped (part ++ ';' :: comment) part
  | closed {part comment rest kept : List Char}
      (plain : IsPlain part ('(' :: (comment ++ ')' :: rest))) (inside : ')' ∉ comment)
      (behind : IsStripped rest kept) :
      IsStripped (part ++ '(' :: (comment ++ ')' :: rest)) (part ++ kept)

section Equations

variable {c : Char} {comment rest : List Char}

/-- A parenthesis is closed by the first closing one behind it. -/
theorem dropWhile_closed (inside : ')' ∉ comment) (rest : List Char) :
    (comment ++ ')' :: rest).dropWhile (· != ')') = ')' :: rest := by
  have others : ∀ c ∈ comment, (c != ')') = true :=
    fun c member => bne_iff_ne.mpr fun same => inside (same ▸ member)
  rw [List.dropWhile_append_of_pos others]
  rfl

/-- A parenthesis that nothing closes goes on to the end. -/
theorem dropWhile_open (unclosed : ')' ∉ rest) : rest.dropWhile (· != ')') = [] :=
  List.dropWhile_eq_nil_iff.mpr fun _ member =>
    bne_iff_ne.mpr fun same => unclosed (same ▸ member)

theorem removeComments_semicolon (rest : List Char) :
    removeComments (';' :: rest) = removeComments (rest.dropWhile (· != '\n')) := by
  rw [removeComments, if_pos rfl]

theorem removeComments_closed (inside : ')' ∉ comment) (rest : List Char) :
    removeComments ('(' :: (comment ++ ')' :: rest)) = removeComments rest := by
  rw [removeComments, if_neg (by decide), if_pos rfl]
  split
  · next unclosed => rw [dropWhile_closed inside] at unclosed; cases unclosed
  · next found =>
      rw [dropWhile_closed inside] at found
      cases found
      rfl

theorem removeComments_open (unclosed : ')' ∉ rest) :
    removeComments ('(' :: rest) = '(' :: removeComments rest := by
  rw [removeComments, if_neg (by decide), if_pos rfl]
  split
  · rfl
  · next found => rw [dropWhile_open unclosed] at found; cases found

theorem removeComments_other (semicolon : c ≠ ';') (parenthesis : c ≠ '(') (rest : List Char) :
    removeComments (c :: rest) = c :: removeComments rest := by
  rw [removeComments, if_neg semicolon, if_neg parenthesis]

/-- What holds of a line because it holds behind its first comment, or behind its first
character where no comment starts, holds of all lines. -/
@[elab_as_elim]
theorem inductionOnComments {motive : List Char → Prop} (nil : motive [])
    (semicolon : ∀ rest, motive (rest.dropWhile (· != '\n')) → motive (';' :: rest))
    (closed : ∀ comment rest, ')' ∉ comment → motive rest →
      motive ('(' :: (comment ++ ')' :: rest)))
    (unclosed : ∀ rest, ')' ∉ rest → motive rest → motive ('(' :: rest))
    (other : ∀ c rest, c ≠ ';' → c ≠ '(' → motive rest → motive (c :: rest))
    (line : List Char) : motive line := by
  induction length : line.length using Nat.strong_induction_on generalizing line with
  | _ n ih =>
      subst length
      cases line with
      | nil => exact nil
      | cons c rest =>
          have shorter {text : List Char} (le : text.length ≤ rest.length) : motive text :=
            ih text.length (Nat.lt_succ_of_le le) text rfl
          rcases eq_or_ne c ';' with rfl | noSemicolon
          · exact semicolon rest (shorter (List.dropWhile_suffix _).length_le)
          rcases eq_or_ne c '(' with rfl | noParenthesis
          · by_cases closing : ')' ∈ rest
            · obtain ⟨comment, after, rfl, inside⟩ := List.eq_append_cons_of_mem closing
              refine closed comment after inside (shorter ?_)
              rw [List.length_append, List.length_cons]
              omega
            · exact unclosed rest closing (shorter le_rfl)
          · exact other c rest noSemicolon noParenthesis (shorter le_rfl)

end Equations

/-- Behind a parenthesis the first closing one ends a match. -/
theorem rests_parenthesis (text : List Char) :
    commentPattern.rests ('(' :: text) =
      (Pattern.one (· == ')')).rests (text.dropWhile (· != ')')) := by
  have inside : ((Pattern.many (· != ')')).rests text).flatMap (Pattern.one (· == ')')).rests =
      (Pattern.one (· == ')')).rests (text.dropWhile (· != ')')) := by
    refine Pattern.flatMap_restsOfMany (fun c rest accepted => ?_) text
    exact if_neg fun same => bne_iff_ne.mp accepted (eq_of_beq same)
  rw [← inside]
  simp [commentPattern, Pattern.rests]

/-- Behind a semicolon the longest run up to a line feed is tried first. -/
theorem rests_semicolon (text : List Char) :
    (commentPattern.rests (';' :: text)).head? = some (text.dropWhile (· != '\n')) := by
  rw [← Pattern.head?_restsOfMany]
  simp [commentPattern, Pattern.rests]

/-- No other character starts a comment. -/
theorem rests_other {c : Char} (semicolon : c ≠ ';') (parenthesis : c ≠ '(') (text : List Char) :
    commentPattern.rests (c :: text) = [] := by
  simp [commentPattern, Pattern.rests, semicolon, parenthesis]

/-- Comments are what the pattern finds. -/
theorem removeAll_commentPattern (line : List Char) :
    commentPattern.removeAll line = removeComments line := by
  induction line using inductionOnComments with
  | nil => rw [Pattern.removeAll, removeComments]
  | semicolon rest ih =>
      rw [removeComments_semicolon, ← ih]
      exact Pattern.removeAll_of_match (rests_semicolon rest) (List.dropWhile_suffix _).length_le
  | closed comment rest inside ih =>
      have found := rests_parenthesis (comment ++ ')' :: rest)
      rw [dropWhile_closed inside] at found
      rw [removeComments_closed inside, ← ih]
      refine Pattern.removeAll_of_match (by rw [found]; rfl) ?_
      rw [List.length_append, List.length_cons]
      omega
  | unclosed rest unclosed ih =>
      have unmatched := rests_parenthesis rest
      rw [dropWhile_open unclosed] at unmatched
      rw [removeComments_open unclosed, ← ih]
      exact Pattern.removeAll_of_none unmatched
  | other c rest semicolon parenthesis ih =>
      rw [removeComments_other semicolon parenthesis, ← ih]
      exact Pattern.removeAll_of_none (rests_other semicolon parenthesis rest)

namespace IsPlain

variable {c : Char} {part behind : List Char}

theorem nil (behind : List Char) : IsPlain [] behind where
  noSemicolon := List.not_mem_nil
  notClosed front back same := by cases front <;> cases same

/-- A character that starts no comment goes in front. -/
theorem cons (plain : IsPlain part behind) (semicolon : c ≠ ';')
    (notClosed : c = '(' → ')' ∉ part ++ behind) : IsPlain (c :: part) behind where
  noSemicolon := List.not_mem_cons_of_ne_of_not_mem semicolon.symm plain.noSemicolon
  notClosed front back same := by
    cases front with
    | nil =>
        obtain ⟨parenthesis, rfl⟩ := List.cons.inj same
        exact notClosed parenthesis
    | cons first front =>
        obtain ⟨-, same⟩ := List.cons.inj same
        exact plain.notClosed front back same

/-- The first character of a part starts no comment, and neither does one behind it. -/
theorem of_cons (plain : IsPlain (c :: part) behind) :
    c ≠ ';' ∧ (c = '(' → ')' ∉ part ++ behind) ∧ IsPlain part behind := by
  refine ⟨fun same => ?_, fun same => ?_, ⟨?_, fun front back same => ?_⟩⟩
  · exact plain.noSemicolon (same ▸ List.mem_cons_self)
  · exact plain.notClosed [] part (same ▸ rfl)
  · exact fun inside => plain.noSemicolon (List.mem_cons_of_mem c inside)
  · exact plain.notClosed (c :: front) back (same ▸ rfl)

/-- With less behind it a part stays as it is. -/
theorem shorten (plain : IsPlain part behind) : IsPlain part [] where
  noSemicolon := plain.noSemicolon
  notClosed front back same inside :=
    plain.notClosed front back same (List.mem_append_left _ (by simpa using inside))

/-- In front of a closing parenthesis there is no opening one. -/
theorem notMem_of_closing (plain : IsPlain part behind) (closing : ')' ∈ behind) :
    '(' ∉ part := by
  intro inside
  obtain ⟨front, back, same⟩ := List.append_of_mem inside
  exact plain.notClosed front back same (List.mem_append_right _ closing)

/-- A part without parentheses goes in front of any other. -/
theorem append {front : List Char} (semicolon : ';' ∉ front) (parenthesis : '(' ∉ front)
    (plain : IsPlain part behind) : IsPlain (front ++ part) behind := by
  induction front with
  | nil => exact plain
  | cons c front ih =>
      rw [List.mem_cons, not_or] at semicolon parenthesis
      exact (ih semicolon.2 parenthesis.2).cons (Ne.symm semicolon.1)
        fun same => absurd same.symm parenthesis.1

/-- A part in which no comment starts is kept. -/
theorem removeComments_append (plain : IsPlain part behind) :
    removeComments (part ++ behind) = part ++ removeComments behind := by
  induction part with
  | nil => rfl
  | cons c part ih =>
      obtain ⟨semicolon, notClosed, plain⟩ := plain.of_cons
      rw [List.cons_append, List.cons_append, ← ih plain]
      by_cases parenthesis : c = '('
      · rw [parenthesis, removeComments_open (notClosed parenthesis)]
      · rw [removeComments_other semicolon parenthesis]

/-- Nothing is removed where no comment starts. -/
theorem removeComments_eq (plain : IsPlain part []) : removeComments part = part := by
  have kept := plain.removeComments_append
  rwa [removeComments, List.append_nil] at kept

end IsPlain

namespace IsStripped

variable {c : Char} {line kept : List Char}

/-- A character that starts no comment is kept. -/
theorem cons (stripped : IsStripped line kept) (semicolon : c ≠ ';')
    (notClosed : c = '(' → ')' ∉ line) : IsStripped (c :: line) (c :: kept) := by
  cases stripped with
  | plain plain => exact .plain (plain.cons semicolon (by rwa [List.append_nil]))
  | ending plain => exact .ending (plain.cons semicolon notClosed)
  | closed plain inside behind => exact .closed (plain.cons semicolon notClosed) inside behind

/-- What is kept of a line has no comment. -/
theorem isPlain (stripped : IsStripped line kept) : IsPlain kept [] := by
  induction stripped with
  | plain plain => exact plain
  | ending plain => exact plain.shorten
  | closed plain inside behind ih =>
      have parenthesis := plain.notMem_of_closing (by simp)
      exact ih.append plain.noSemicolon parenthesis

/-- Only one text is kept of a line. -/
theorem eq_removeComments (stripped : IsStripped line kept) (single : '\n' ∉ line) :
    kept = removeComments line := by
  induction stripped with
  | plain plain => exact plain.removeComments_eq.symm
  | @ending part comment plain =>
      have whole : comment.dropWhile (· != '\n') = [] := by
        refine List.dropWhile_eq_nil_iff.mpr fun c inside => bne_iff_ne.mpr ?_
        rintro rfl
        exact single (List.mem_append_right _ (List.mem_cons_of_mem _ inside))
      rw [plain.removeComments_append, removeComments_semicolon, whole, removeComments,
        List.append_nil]
  | @closed part comment rest kept plain inside behind ih =>
      have later : '\n' ∉ rest := fun member => single (by simp [member])
      rw [plain.removeComments_append, removeComments_closed inside, ih later]

end IsStripped

/-- What is kept of a single line is what it is without its comments. -/
theorem isStripped_removeComments {line : List Char} (single : '\n' ∉ line) :
    IsStripped line (removeComments line) := by
  induction line using inductionOnComments with
  | nil =>
      rw [removeComments]
      exact .plain (.nil [])
  | semicolon rest ih =>
      have nothing : IsStripped (';' :: rest) [] := .ending (.nil (';' :: rest))
      rwa [← nothing.eq_removeComments single]
  | closed comment rest inside ih =>
      rw [removeComments_closed inside]
      have later : '\n' ∉ rest := fun member => single (by simp [member])
      exact .closed (.nil _) inside (ih later)
  | unclosed rest unclosed ih =>
      rw [removeComments_open unclosed]
      exact (ih (List.not_mem_of_not_mem_cons single)).cons (by decide) fun _ => unclosed
  | other c rest semicolon parenthesis ih =>
      rw [removeComments_other semicolon parenthesis]
      exact (ih (List.not_mem_of_not_mem_cons single)).cons semicolon
        fun same => absurd same parenthesis

/-- What is removed from a line are its comments, of which there is only one choice, and the
pattern finds the same ones.  Nothing of what is left is a comment, though it comes to
stand together, so nothing more is removed from it. -/
theorem removeComments_exactly {line : List Char} (single : '\n' ∉ line) :
    (∀ kept, IsStripped line kept ↔ kept = removeComments line) ∧
      removeComments line = commentPattern.removeAll line ∧
      ';' ∉ removeComments line ∧
      (∀ front back, removeComments line = front ++ '(' :: back → ')' ∉ back) ∧
      removeComments (removeComments line) = removeComments line := by
  have stripped := isStripped_removeComments single
  have plain := stripped.isPlain
  refine ⟨fun kept => ⟨fun other => other.eq_removeComments single, fun same => same ▸ stripped⟩,
    (removeAll_commentPattern line).symm, plain.noSemicolon, fun front back same => ?_,
    plain.removeComments_eq⟩
  simpa using plain.notClosed front back same

/-- A line with a semicolon in a comment, a parenthesis within another, one that is left
over, and one that nothing closes in front of a semicolon. -/
def commentedLine : List Char :=
  "X(a;b)1((c)d)2(e;f(".toList

/-- Three comments are removed from that line. -/
theorem removeComments_commentedLine :
    '\n' ∉ commentedLine ∧ removeComments commentedLine = "X1d)2(e".toList ∧
      (∀ kept, IsStripped commentedLine kept ↔ kept = "X1d)2(e".toList) ∧
      removeComments "X1d)2(e".toList = "X1d)2(e".toList := by
  have single : '\n' ∉ commentedLine := by decide
  have known : removeComments commentedLine = "X1d)2(e".toList := by decide +kernel
  obtain ⟨only, -, -, -, again⟩ := removeComments_exactly single
  rw [known] at only again
  exact ⟨single, known, only, again⟩

end Machine

end LaserCut
