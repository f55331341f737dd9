/-
# Files of numbers that are laid out for people

An object that is laid out for people has one member to a line.  White space goes in
front of its keys and values, and a number ends at a comma or where its line does; so
an object of numbers is parsed as its members, as it would be on a single line.
-/

import Mathlib
import LaserCut.Proofs.Json.Parser

namespace LaserCut.Json

/-- A value that is written as a number, with the numeral that it is read as. -/
structure IsNumber (json : Json) (numeral : Numeral) : Prop where
  scan : scanNumber json.compact = .ok (numeral, [])
  line : ∀ depth, json.pretty depth = json.compact

/-- Members that are numbers: keys, values and numerals. -/
abbrev NumberMember :=
  String × Json × Numeral

namespace NumberMember

/-- A member that is written. -/
def written (entry : NumberMember) : String × Json :=
  (entry.1, entry.2.1)

/-- A member that is parsed. -/
def parsed (entry : NumberMember) : Member :=
  .keyed (.ok entry.1) (.number entry.2.2)

end NumberMember

/-- The text of a member behind the start of its line. -/
def lineOf (entry : NumberMember) : List Char :=
  renderString entry.1 ++ ':' :: ' ' :: entry.2.1.compact

/-- The text of members behind the start of the first line. -/
def linesOf (depth : Nat) : List NumberMember → List Char
  | [] => []
  | [entry] => lineOf entry
  | entry :: rest => lineOf entry ++ ',' :: (newLine depth ++ linesOf depth rest)

/-- Members that are numbers are laid out as their lines. -/
theorem prettyMembers_eq (depth : Nat) {entry : NumberMember} {entries : List NumberMember}
    (numbers : ∀ other ∈ entry :: entries, IsNumber other.2.1 other.2.2) :
    prettyMembers depth ((entry :: entries).map NumberMember.written) =
      newLine depth ++ linesOf depth (entry :: entries) := by
  induction entries generalizing entry with
  | nil =>
      have number := numbers entry List.mem_cons_self
      simp [prettyMembers, linesOf, lineOf, NumberMember.written, number.line]
  | cons next entries ih =>
      obtain ⟨number, others⟩ := List.forall_mem_cons.mp numbers
      have rest := ih others
      simp only [List.map_cons] at rest ⊢
      rw [prettyMembers, rest]
      · simp [linesOf, lineOf, NumberMember.written, number.line]
      · simp

/-- The start of a line is white space. -/
theorem isSpace_newLine (depth : Nat) : ∀ c ∈ newLine depth, isSpace c = true := by
  intro c inside
  rcases List.mem_cons.mp inside with rfl | blank
  · rfl
  · rw [List.eq_of_mem_replicate blank]
    rfl

/-- White space is skipped. -/
theorem skipSpace_append {space : List Char} (blank : ∀ c ∈ space, isSpace c = true)
    (rest : List Char) : skipSpace (space ++ rest) = skipSpace rest :=
  List.dropWhile_append_of_pos blank

/-- A number is parsed behind white space. -/
theorem parseValue_space {json : Json} {numeral : Numeral} (number : IsNumber json numeral)
    {rest : List Char} (ends : EndsNumber rest) (fuel : Nat) :
    parseValue (fuel + 1) (' ' :: (json.compact ++ rest)) = (.number numeral, some rest) := by
  have longer := scanNumber_before ends number.scan
  obtain ⟨c, more, known, starts⟩ := head_of_scanNumber longer
  have same : parseValue (fuel + 1) (' ' :: c :: more) = parseValue (fuel + 1) (c :: more) := by
    simp [parseValue, skipSpace, isSpace]
  rw [known] at longer ⊢
  rw [same, parseValue_eq_parseNumber starts more (by omega), parseNumber, longer]
  rfl

/-- A member is parsed behind white space. -/
theorem parseMember_line {entry : NumberMember} (number : IsNumber entry.2.1 entry.2.2)
    {space rest : List Char} (blank : ∀ c ∈ space, isSpace c = true) (ends : EndsNumber rest)
    (fuel : Nat) :
    parseMember (fuel + 2) (space ++ (lineOf entry ++ rest)) = (entry.parsed, some rest) := by
  have quote := skipSpace_cons (c := '"') rfl
  have colon := skipSpace_cons (c := ':') rfl
  have value := parseValue_space number ends fuel
  simp [parseMember, lineOf, renderString, skipSpace_append blank, quote, colon, scanString_escaped,
    value, NumberMember.parsed]

/-- Lines of members are parsed one after the other, up to the closing bracket. -/
theorem parseMembers_lines (depth : Nat) {entry : NumberMember} {entries : List NumberMember}
    (numbers : ∀ other ∈ entry :: entries, IsNumber other.2.1 other.2.2) (taken : List Member)
    {space : List Char} (blank : ∀ c ∈ space, isSpace c = true) {fuel : Nat}
    (enough : entries.length + 2 < fuel) (outer : Nat) (rest : List Char) :
    parseMembers fuel taken
        (space ++ (linesOf depth (entry :: entries) ++ (newLine outer ++ '\x7d' :: rest))) =
      (.object (taken.reverse ++ (entry :: entries).map NumberMember.parsed) none, some rest) := by
  obtain ⟨steps, rfl⟩ : ∃ steps, fuel = steps + 3 := ⟨fuel - 3, by omega⟩
  induction entries generalizing entry taken space steps with
  | nil =>
      have ends : EndsNumber (newLine outer ++ '\x7d' :: rest) := by simp [EndsNumber, newLine]
      have parsed := parseMember_line (numbers entry List.mem_cons_self) blank ends steps
      have closing := skipSpace_append (isSpace_newLine outer) ('\x7d' :: rest)
      rw [skipSpace_cons (by rfl)] at closing
      rw [parseMembers, linesOf, parsed]
      simp [closing]
  | cons next entries ih =>
      obtain ⟨number, others⟩ := List.forall_mem_cons.mp numbers
      obtain ⟨fewer, rfl⟩ : ∃ fewer, steps = fewer + 1 := ⟨steps - 1, by
        rw [List.length_cons] at enough
        omega⟩
      let behind := linesOf depth (next :: entries) ++ (newLine outer ++ '\x7d' :: rest)
      have ends : EndsNumber (',' :: (newLine depth ++ behind)) := by simp [EndsNumber]
      have parsed := parseMember_line number blank ends (fewer + 1)
      have comma := skipSpace_cons (c := ',') rfl (newLine depth ++ behind)
      have following := ih others (entry.parsed :: taken) (isSpace_newLine depth) fewer
        (by simpa using enough)
      have text : linesOf depth (entry :: next :: entries) ++ (newLine outer ++ '\x7d' :: rest) =
          lineOf entry ++ ',' :: (newLine depth ++ behind) := by
        simp [linesOf, behind]
      rw [text, parseMembers, parsed]
      simp only [comma]
      rw [following]
      simp

/-- There are no more members than characters in their lines. -/
theorem length_le_linesOf (depth : Nat) (entries : List NumberMember) :
    entries.length ≤ (linesOf depth entries).length := by
  induction entries with
  | nil => simp
  | cons entry entries ih =>
      cases entries with
      | nil =>
          simp only [linesOf, lineOf, List.length_append, List.length_cons, List.length_nil]
          omega
      | cons next entries =>
          simp only [linesOf, List.length_append, List.length_cons] at ih ⊢
          omega

/-- Lines start with the quote of a key. -/
theorem head_linesOf (depth : Nat) (entry : NumberMember) (entries : List NumberMember) :
    ∃ more, linesOf depth (entry :: entries) = '"' :: more := by
  cases entries with
  | nil => exact ⟨_, rfl⟩
  | cons next entries => exact ⟨_, rfl⟩

/-- A file of numbers is parsed as its members. -/
theorem parse_pretty {entry : NumberMember} {entries : List NumberMember}
    (numbers : ∀ other ∈ entry :: entries, IsNumber other.2.1 other.2.2) :
    parse (Json.object ((entry :: entries).map NumberMember.written)).toPretty.toList =
      (.object ((entry :: entries).map NumberMember.parsed) none, some []) := by
  have text : (Json.object ((entry :: entries).map NumberMember.written)).toPretty.toList =
      '\x7b' :: (newLine 1 ++ (linesOf 1 (entry :: entries) ++ (newLine 0 ++ ['\x7d']))) := by
    have lines := prettyMembers_eq 1 numbers
    rw [List.map_cons] at lines
    rw [toPretty, String.toList_ofList, List.map_cons, pretty, lines]
    simp
  have room := length_le_linesOf 1 (entry :: entries)
  obtain ⟨fuel, size⟩ : ∃ fuel, 4 * (Json.object ((entry :: entries).map
      NumberMember.written)).toPretty.toList.length + 4 = fuel + 2 := ⟨_, rfl⟩
  have enough : entries.length + 2 < fuel := by
    rw [text] at size
    simp only [List.length_append, List.length_cons] at size room
    omega
  have parsed := parseMembers_lines 1 numbers [] (List.forall_mem_nil _) enough 0 []
  obtain ⟨more, quote⟩ := head_linesOf 1 entry entries
  have opening := skipSpace_cons (c := '\x7b') rfl
  have first := skipSpace_append (isSpace_newLine 1)
    (linesOf 1 (entry :: entries) ++ (newLine 0 ++ ['\x7d']))
  rw [quote, List.cons_append, skipSpace_cons (by rfl)] at first
  rw [quote, List.nil_append, List.cons_append] at parsed
  rw [parse, size, text, quote]
  simp only [parseValue, opening, if_true, parseObject, List.cons_append, first]
  exact parsed

end LaserCut.Json
