/-
# The tree of a written value

What is written for a value is parsed as one tree, wherever the value stands.
The steps of the parser are bounded by four times the length of the text; the
lemmas on items and members carry this bound along with the text that is left.
-/

import Mathlib
import LaserCut.Json.Reading
import LaserCut.Json.Value
import LaserCut.Proofs.Decimal.Layout
import LaserCut.Proofs.Json.Numbers
import LaserCut.Proofs.Json.Strings

namespace LaserCut.Json

/-- A written value is parsed as a node, whatever ends it. -/
structure Parses (json : Json) (node : Node) : Prop where
  /-- An item is neither taken for white space nor for the end of its array. -/
  head : ∃ c rest, json.compact = c :: rest ∧ isSpace c = false ∧ c ≠ ']'
  parse : ∀ {fuel rest}, 4 * json.compact.length < fuel → EndsValue rest →
    parseValue fuel (json.compact ++ rest) = (node, some rest)

/-- A text that starts with no white space has nothing to skip. -/
theorem skipSpace_cons {c : Char} (visible : isSpace c = false) (rest : List Char) :
    skipSpace (c :: rest) = c :: rest := by
  simp [skipSpace, visible]

theorem endsValue_cons {c : Char} (ending : c ∈ [',', ']', '\x7d']) (rest : List Char) :
    EndsValue (c :: rest) :=
  fun _ first => Option.some.inj first ▸ ending

/-- The text of a value alone is parsed to its end. -/
theorem Parses.parse_eq {json : Json} {node : Node} (parses : Parses json node) :
    Json.parse json.toCompact.toList = (node, some []) := by
  have room : 4 * json.compact.length < 4 * json.compact.length + 4 := by omega
  have ends : EndsValue [] := by simp [EndsValue]
  simpa [Json.parse, toCompact] using parses.parse room ends

/-- A string is parsed as itself. -/
theorem Parses.string (text : String) : Parses (.string text) (.string (.ok text)) where
  head := ⟨'"', _, rfl, rfl, by decide⟩
  parse := by
    intro fuel rest enough _
    obtain ⟨steps, rfl⟩ : ∃ steps, fuel = steps + 1 := ⟨fuel - 1, by omega⟩
    simp [compact, renderString, parseValue, skipSpace, isSpace, parseString, scanString_escaped]

/-- The word `null` is parsed as itself. -/
theorem Parses.null {json : Json} (text : json.compact = "null".toList) : Parses json .null where
  head := ⟨'n', "ull".toList, text, rfl, by decide⟩
  parse := by
    intro fuel rest enough _
    obtain ⟨steps, rfl⟩ : ∃ steps, fuel = steps + 1 := ⟨fuel - 1, by omega⟩
    rw [text]
    simp [parseValue, skipSpace, isSpace, parseWord, scanWord]

/-- Items have a comma between them. -/
theorem compactItems_cons_cons (item next : Json) (items : List Json) :
    compactItems (item :: next :: items) = item.compact ++ ',' :: compactItems (next :: items) := by
  rw [compactItems]
  simp

/-- Items are parsed one after the other, up to the closing bracket. -/
theorem parseItems_compact {item : Json} {node : Node} {items : List Json} {nodes : List Node}
    (first : Parses item node) (others : List.Forall₂ Parses items nodes) (taken : List Node)
    {fuel : Nat} (enough : 4 * (compactItems (item :: items)).length + 1 < fuel)
    (rest : List Char) :
    parseItems fuel taken (compactItems (item :: items) ++ ']' :: rest) =
      (.array (taken.reverse ++ node :: nodes) none, some rest) := by
  obtain ⟨steps, rfl⟩ : ∃ steps, fuel = steps + 1 := ⟨fuel - 1, by omega⟩
  induction others generalizing item node taken steps with
  | nil =>
      have parsed := first.parse (by simpa [compactItems] using enough)
        (endsValue_cons (c := ']') (by simp) rest)
      have closing := skipSpace_cons (c := ']') rfl rest
      simp [compactItems, parseItems, parsed, closing]
  | @cons next following items nodes second others ih =>
      rw [compactItems_cons_cons, List.length_append, List.length_cons] at enough
      obtain ⟨steps, rfl⟩ : ∃ fewer, steps = fewer + 1 := ⟨steps - 1, by omega⟩
      have parsed := first.parse (show 4 * item.compact.length < steps + 1 by omega)
        (endsValue_cons (c := ',') (by simp) (compactItems (next :: items) ++ ']' :: rest))
      have comma := skipSpace_cons (c := ',') rfl (compactItems (next :: items) ++ ']' :: rest)
      have behind := ih second (node :: taken) steps (by omega)
      rw [compactItems_cons_cons, List.append_assoc, List.cons_append, parseItems]
      simp [parsed, comma, behind]

/-- Items start with the first one. -/
theorem head_compactItems {item : Json} {node : Node} (first : Parses item node)
    (items : List Json) :
    ∃ c more, compactItems (item :: items) = c :: more ∧ isSpace c = false ∧ c ≠ ']' := by
  obtain ⟨c, more, known, visible, inside⟩ := first.head
  cases items with
  | nil => exact ⟨c, more, by rw [compactItems, known], visible, inside⟩
  | cons next items =>
      exact ⟨c, _, by rw [compactItems_cons_cons, known, List.cons_append], visible, inside⟩

/-- An array is parsed if its items are. -/
theorem Parses.array {items : List Json} {nodes : List Node}
    (parses : List.Forall₂ Parses items nodes) : Parses (.array items) (.array nodes none) where
  head := ⟨'[', _, rfl, rfl, by decide⟩
  parse := by
    intro fuel rest enough _
    simp only [compact, List.length_append, List.length_cons, List.length_nil] at enough
    obtain ⟨steps, rfl⟩ : ∃ steps, fuel = steps + 2 := ⟨fuel - 2, by omega⟩
    have opening := skipSpace_cons (c := '[') rfl
    cases parses with
    | nil =>
        have closing := skipSpace_cons (c := ']') rfl rest
        simp [compact, compactItems, parseValue, parseArray, opening, closing]
    | @cons item node items nodes first others =>
        have parsed := parseItems_compact first others []
          (show 4 * (compactItems (item :: items)).length + 1 < steps by omega) rest
        obtain ⟨c, more, known, visible, inside⟩ := head_compactItems first items
        have start := skipSpace_cons visible (more ++ ']' :: rest)
        rw [known, List.cons_append] at parsed
        simp [compact, known, parseValue, parseArray, opening, start, inside, parsed]

/-- The text of a member. -/
def compactMember (member : String × Json) : List Char :=
  renderString member.1 ++ ':' :: member.2.compact

/-- A written member is parsed as a node under the same key. -/
inductive ParsesMember : String × Json → Member → Prop
  | keyed (key : String) {value : Json} {node : Node} (parses : Parses value node) :
      ParsesMember (key, value) (.keyed (.ok key) node)

/-- A member is parsed as itself, whatever ends it. -/
theorem parseMember_compact {member : String × Json} {node : Member}
    (parses : ParsesMember member node) {fuel : Nat}
    (enough : 4 * (compactMember member).length < fuel) {rest : List Char}
    (ends : EndsValue rest) :
    parseMember fuel (compactMember member ++ rest) = (node, some rest) := by
  cases parses with
  | @keyed key value node parses =>
      simp only [compactMember, List.length_append, List.length_cons] at enough
      obtain ⟨steps, rfl⟩ : ∃ steps, fuel = steps + 1 := ⟨fuel - 1, by omega⟩
      have parsed := parses.parse (show 4 * value.compact.length < steps by omega) ends
      have quote := skipSpace_cons (c := '"') rfl
      have colon := skipSpace_cons (c := ':') rfl
      simp [compactMember, renderString, parseMember, quote, colon, scanString_escaped, parsed]

/-- Members have a comma between them. -/
theorem compactMembers_cons_cons (member next : String × Json) (members : List (String × Json)) :
    compactMembers (member :: next :: members) =
      compactMember member ++ ',' :: compactMembers (next :: members) := by
  rw [compactMembers]
  · simp [compactMember]
  · simp

theorem compactMembers_singleton (member : String × Json) :
    compactMembers [member] = compactMember member := by
  rw [compactMembers, compactMember]

/-- Members are parsed one after the other, up to the closing bracket. -/
theorem parseMembers_compact {member : String × Json} {node : Member}
    {members : List (String × Json)} {nodes : List Member} (first : ParsesMember member node)
    (others : List.Forall₂ ParsesMember members nodes) (taken : List Member) {fuel : Nat}
    (enough : 4 * (compactMembers (member :: members)).length + 1 < fuel) (rest : List Char) :
    parseMembers fuel taken (compactMembers (member :: members) ++ '\x7d' :: rest) =
      (.object (taken.reverse ++ node :: nodes) none, some rest) := by
  obtain ⟨steps, rfl⟩ : ∃ steps, fuel = steps + 1 := ⟨fuel - 1, by omega⟩
  induction others generalizing member node taken steps with
  | nil =>
      rw [compactMembers_singleton] at enough ⊢
      have parsed := parseMember_compact first (by simpa using enough)
        (endsValue_cons (c := '\x7d') (by simp) rest)
      have closing := skipSpace_cons (c := '\x7d') rfl rest
      simp [parseMembers, parsed, closing]
  | @cons next following members nodes second others ih =>
      rw [compactMembers_cons_cons, List.length_append, List.length_cons] at enough
      obtain ⟨steps, rfl⟩ : ∃ fewer, steps = fewer + 1 := ⟨steps - 1, by omega⟩
      have parsed := parseMember_compact first
        (show 4 * (compactMember member).length < steps + 1 by omega)
        (endsValue_cons (c := ',') (by simp) (compactMembers (next :: members) ++ '\x7d' :: rest))
      have comma := skipSpace_cons (c := ',') rfl (compactMembers (next :: members) ++ '\x7d' :: rest)
      have behind := ih second (node :: taken) steps (by omega)
      rw [compactMembers_cons_cons, List.append_assoc, List.cons_append, parseMembers]
      simp [parsed, comma, behind]

/-- Members start with the quote of the first key. -/
theorem head_compactMembers (member : String × Json) (members : List (String × Json)) :
    ∃ more, compactMembers (member :: members) = '"' :: more := by
  cases members with
  | nil => exact ⟨_, by rw [compactMembers_singleton, compactMember, renderString]; rfl⟩
  | cons next members =>
      exact ⟨_, by rw [compactMembers_cons_cons, compactMember, renderString]; rfl⟩

/-- An object is parsed if its members are. -/
theorem Parses.object {members : List (String × Json)} {nodes : List Member}
    (parses : List.Forall₂ ParsesMember members nodes) :
    Parses (.object members) (.object nodes none) where
  head := ⟨'\x7b', _, rfl, rfl, by decide⟩
  parse := by
    intro fuel rest enough _
    simp only [compact, List.length_append, List.length_cons, List.length_nil] at enough
    obtain ⟨steps, rfl⟩ : ∃ steps, fuel = steps + 2 := ⟨fuel - 2, by omega⟩
    have opening := skipSpace_cons (c := '\x7b') rfl
    cases parses with
    | nil =>
        have closing := skipSpace_cons (c := '\x7d') rfl rest
        simp [compact, compactMembers, parseValue, parseObject, opening, closing]
    | @cons member node members nodes first others =>
        have parsed := parseMembers_compact first others []
          (show 4 * (compactMembers (member :: members)).length + 1 < steps by omega) rest
        obtain ⟨more, known⟩ := head_compactMembers member members
        have start := skipSpace_cons (c := '"') rfl (more ++ '\x7d' :: rest)
        rw [known, List.cons_append] at parsed
        simp [compact, known, parseValue, parseObject, opening, start, parsed]

/-- A minus or a digit is no white space and starts nothing but a number. -/
theorem ne_of_startsNumber {c : Char} (starts : c = '-' ∨ c.isDigit = true) :
    isSpace c = false ∧ c ∉ ['\x7b', '[', '"', ']'] := by
  constructor
  · by_contra space
    simp only [isSpace, Bool.or_eq_true, beq_iff_eq, Bool.not_eq_false] at space
    rcases space with ((rfl | rfl) | rfl) | rfl <;> exact absurd starts (by decide)
  · intro inside
    simp only [List.mem_cons, List.not_mem_nil, or_false] at inside
    rcases inside with rfl | rfl | rfl | rfl <;> exact absurd starts (by decide)

/-- After a minus or a digit a number is parsed. -/
theorem parseValue_eq_parseNumber {c : Char} (starts : c = '-' ∨ c.isDigit = true)
    (rest : List Char) {fuel : Nat} (enough : 0 < fuel) :
    parseValue fuel (c :: rest) = parseNumber (c :: rest) := by
  obtain ⟨steps, rfl⟩ : ∃ steps, fuel = steps + 1 := ⟨fuel - 1, by omega⟩
  obtain ⟨visible, other⟩ := ne_of_startsNumber starts
  simp only [List.mem_cons, List.not_mem_nil, or_false, not_or] at other
  simp [parseValue, skipSpace_cons visible, other, starts]

/-- A number starts with a minus or a digit. -/
theorem head_of_scanNumber {text after : List Char} {numeral : Numeral}
    (found : scanNumber text = .ok (numeral, after)) :
    ∃ c rest, text = c :: rest ∧ (c = '-' ∨ c.isDigit = true) := by
  rcases scanNumber_eq_ok found with ⟨rest, rfl, -⟩ | ⟨c, rest, rfl, digital, -⟩
  · exact ⟨'-', rest, rfl, .inl rfl⟩
  · exact ⟨c, rest, rfl, .inr digital⟩

/-- A value whose text is a number is parsed as that number. -/
theorem Parses.number {json : Json} {numeral : Numeral}
    (found : scanNumber json.compact = .ok (numeral, [])) : Parses json (.number numeral) where
  head := by
    obtain ⟨c, rest, known, starts⟩ := head_of_scanNumber found
    obtain ⟨visible, other⟩ := ne_of_startsNumber starts
    exact ⟨c, rest, known, visible, fun closing => other (by simp [closing])⟩
  parse := by
    intro fuel rest enough ends
    have longer := scanNumber_before ends.endsNumber found
    obtain ⟨c, more, known, starts⟩ := head_of_scanNumber longer
    rw [known] at longer ⊢
    rw [parseValue_eq_parseNumber starts more (by omega), parseNumber, longer]
    rfl

/-- The characters of numbers are no white space. -/
theorem isSpace_of_isNumeric {c : Char} (numeric : Decimal.IsNumeric c) : isSpace c = false := by
  rcases numeric with digital | mark
  · exact (ne_of_startsNumber (.inr digital)).1
  · simp only [List.mem_cons, List.not_mem_nil, or_false] at mark
    rcases mark with rfl | rfl | rfl | rfl <;> rfl

/-- A text of numeric characters is parsed as a number at most. -/
theorem parse_numeric {text : List Char} (numeric : ∀ c ∈ text, Decimal.IsNumeric c) :
    (∃ numeral after, scanNumber text = .ok (numeral, after) ∧
        parse text = (.number numeral, some after)) ∨
      ∃ fault, parse text = (.broken fault, none) := by
  cases text with
  | nil => exact .inr ⟨_, rfl⟩
  | cons c rest =>
      by_cases starts : c = '-' ∨ c.isDigit = true
      · have parsed := parseValue_eq_parseNumber starts rest
          (show 0 < 4 * (c :: rest).length + 4 by omega)
        rw [parse, parsed, parseNumber]
        cases found : scanNumber (c :: rest) with
        | ok read => exact .inl ⟨_, _, rfl, rfl⟩
        | error fault => exact .inr ⟨fault, rfl⟩
      · -- a plus, a point or the mark of an exponent
        refine .inr ⟨.of .malformed, ?_⟩
        have visible := isSpace_of_isNumeric (numeric c List.mem_cons_self)
        rcases numeric c List.mem_cons_self with digital | mark
        · exact absurd (.inr digital) starts
        · simp only [List.mem_cons, List.not_mem_nil, or_false] at mark
          rcases mark with rfl | rfl | rfl | rfl
          · exact absurd (.inl rfl) starts
          all_goals simp [parse, parseValue, skipSpace_cons visible, broken]

/-- A text is decoded if its value is read and nothing stands behind it. -/
theorem decode_eq_ok_iff {α : Type} {read : Reader α} {text : String} {value : α} :
    decode read text = .ok value ↔
      read (parse text.toList).1 = .ok value ∧
        skipSpace ((parse text.toList).2.getD []) = [] := by
  simp only [decode, bind, Except.bind]
  cases read (parse text.toList).1 with
  | error problem => simp
  | ok other =>
      cases (parse text.toList).2 with
      | none => simp [pure, Except.pure, skipSpace]
      | some rest =>
          by_cases finished : skipSpace rest = []
          · simp [pure, Except.pure, finished]
          · simp [finished, breach]

/-- What is written with numeric characters and decoded is a number to its end. -/
theorem scanNumber_of_decode {α : Type} {read : Reader α} {json : Json} {value : α}
    (refuses : ∀ fault other, read (.broken fault) ≠ .ok other)
    (numeric : ∀ c ∈ json.compact, Decimal.IsNumeric c)
    (decoded : decode read json.toCompact = .ok value) :
    ∃ numeral, scanNumber json.compact = .ok (numeral, []) ∧
      read (.number numeral) = .ok value := by
  have text : json.toCompact.toList = json.compact := String.toList_ofList
  obtain ⟨result, finished⟩ := decode_eq_ok_iff.mp decoded
  rw [text] at result finished
  rcases parse_numeric numeric with ⟨numeral, after, found, parsed⟩ | ⟨fault, parsed⟩
  · rw [parsed] at result finished
    have complete : after = [] := by
      have behind := (suffix_of_scanNumber found).subset
      cases after with
      | nil => rfl
      | cons c rest =>
          have visible := isSpace_of_isNumeric (numeric c (behind List.mem_cons_self))
          simp [skipSpace_cons visible] at finished
    rw [complete] at found
    exact ⟨numeral, found, result⟩
  · rw [parsed] at result
    exact absurd result (refuses fault value)

/-- What is written with numeric characters and decoded is a number, which is
read the same wherever it stands. -/
theorem Parses.of_decode {α : Type} {read : Reader α} {json : Json} {value : α}
    (refuses : ∀ fault other, read (.broken fault) ≠ .ok other)
    (numeric : ∀ c ∈ json.compact, Decimal.IsNumeric c)
    (decoded : decode read json.toCompact = .ok value) :
    ∃ numeral, Parses json (.number numeral) ∧ read (.number numeral) = .ok value := by
  obtain ⟨numeral, found, result⟩ := scanNumber_of_decode refuses numeric decoded
  exact ⟨numeral, .number found, result⟩

end LaserCut.Json
