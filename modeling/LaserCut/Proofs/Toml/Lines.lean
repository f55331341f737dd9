/-
# Lines of members with numbers

A configuration file that is written has one member to a line, each a bare key with a
number.  Such a number is no moment, it ends where its line ends, and it is read as the
integer or as the double that was written; so the members of a file are those of its
lines.
-/

import Mathlib
import LaserCut.Toml.Parser
import LaserCut.Proofs.Decimal.WrittenOut
import LaserCut.Proofs.Json.Numbers

namespace LaserCut.Toml

open Decimal (AllDigits IsPlain valueOf)

section Digits

variable {digits rest : List Char}

/-- Without a digit in front there are none to scan. -/
theorem scanDigits_eq_none {text : List Char} (other : ∀ c ∈ text.head?, c.isDigit = false) :
    scanDigits Char.isDigit text = none := by
  unfold scanDigits
  split
  · next c d rest => simp [other c rfl]
  · next c rest _ => simp [other c rfl]
  · rfl

/-- A digit is taken before those behind it, unless an underscore comes next. -/
theorem scanDigits_cons {c : Char} {text : List Char} (digit : c.isDigit = true)
    (apart : text.head? ≠ some '_') :
    scanDigits Char.isDigit (c :: text) =
      match scanDigits Char.isDigit text with
      | some (digits, rest) => some (c :: digits, rest)
      | none => some ([c], text) := by
  rw [scanDigits]
  · exact if_pos digit
  · rintro d more rfl
    exact apart rfl

/-- Digits are scanned to their end. -/
theorem scanDigits_append (digital : AllDigits digits) (nonempty : digits ≠ [])
    (ends : ∀ c ∈ rest.head?, c.isDigit = false ∧ c ≠ '_') :
    scanDigits Char.isDigit (digits ++ rest) = some (digits, rest) := by
  have unread := scanDigits_eq_none fun c first => (ends c first).1
  induction digits with
  | nil => exact absurd rfl nonempty
  | cons c digits ih =>
      obtain ⟨first, others⟩ := List.forall_mem_cons.mp digital
      have apart : (digits ++ rest).head? ≠ some '_' := by
        cases digits with
        | nil => exact fun found => (ends '_' found).2 rfl
        | cons d digits =>
            rintro ⟨rfl⟩
            exact absurd (others '_' List.mem_cons_self) (by decide)
      rw [List.cons_append, scanDigits_cons first apart]
      cases digits with
      | nil => rw [List.nil_append, unread]
      | cons d digits => rw [ih others (by simp)]

/-- A bounded number leaves digits at most in front of what follows them. -/
theorem scanBounded_rest {count least greatest value : Nat} {c : Char} {after : List Char}
    (digital : AllDigits digits) (other : c.isDigit = false)
    (found : scanBounded count least greatest (digits ++ c :: rest) = some (value, after)) :
    ∃ more, AllDigits more ∧ after = more ++ c :: rest := by
  simp only [scanBounded, Option.ite_none_right_eq_some, Option.some.injEq, Prod.mk.injEq] at found
  obtain ⟨⟨length, all, -⟩, -, rfl⟩ := found
  have inside : count ≤ digits.length := by
    by_contra short
    have reached : c ∈ (digits ++ c :: rest).take count := by
      rw [List.take_append, List.mem_append]
      refine .inr (List.mem_of_mem_head? ?_)
      rw [List.head?_take, if_neg (by omega)]
      rfl
    rw [List.all_eq_true.mp all c reached] at other
    cases other
  exact ⟨digits.drop count, fun d within => digital d (List.mem_of_mem_drop within),
    List.drop_append_of_le_length inside⟩

/-- Neither digits nor what follows them are a mark. -/
theorem expect_eq_none {mark c : Char} (digital : AllDigits digits)
    (other : mark.isDigit = false) (apart : c ≠ mark) : expect mark (digits ++ c :: rest) = none := by
  cases digits with
  | nil => simp [expect, apart]
  | cons d digits =>
      have differs : d ≠ mark := by
        rintro rfl
        rw [digital d List.mem_cons_self] at other
        cases other
      simp [expect, differs]

/-- Digits with neither a hyphen nor a colon behind them are no moment. -/
theorem skipMoment_digits {c : Char} (digital : AllDigits digits) (other : c.isDigit = false)
    (hyphen : c ≠ '-') (colon : c ≠ ':') : skipMoment (digits ++ c :: rest) = none := by
  have date : skipDate (digits ++ c :: rest) = none := by
    rw [skipDate]
    cases found : scanBounded 4 0 9999 (digits ++ c :: rest) with
    | none => rfl
    | some year =>
        obtain ⟨value, after⟩ := year
        obtain ⟨more, digitalMore, rfl⟩ := scanBounded_rest digital other found
        simp [expect_eq_none digitalMore (by decide) hyphen]
  have time : skipTime (digits ++ c :: rest) = none := by
    rw [skipTime]
    cases found : scanBounded 2 0 23 (digits ++ c :: rest) with
    | none => rfl
    | some hour =>
        obtain ⟨value, after⟩ := hour
        obtain ⟨more, digitalMore, rfl⟩ := scanBounded_rest digital other found
        simp [expect_eq_none digitalMore (by decide) colon]
  rw [skipMoment, date]
  exact time

/-- What starts with a minus is no moment. -/
theorem skipMoment_minus (text : List Char) : skipMoment ('-' :: text) = none := by
  have noDigits (count least greatest : Nat) :
      scanBounded (count + 1) least greatest ('-' :: text) = none := by
    simp [scanBounded]
  rw [skipMoment, skipDate, noDigits, skipTime, noDigits]
  rfl

end Digits

section Numbers

variable {whole fraction : List Char}

/-- A whole number is read up to the end of its line. -/
theorem scanDecimal_whole (digital : AllDigits whole) (nonempty : whole ≠ [])
    (single : whole.head? = some '0' → whole.length = 1) (fits : valueOf whole < 0x8000000000000000)
    (rest : List Char) :
    scanDecimal false (whole ++ '\n' :: rest) =
      some (.integer (valueOf whole), '\n' :: rest) := by
  have taken : scanDigits Char.isDigit (whole ++ '\n' :: rest) = some (whole, '\n' :: rest) :=
    scanDigits_append digital nonempty (by simp)
  have unpadded : ¬ (whole.head? = some '0' ∧ whole.length ≠ 1) :=
    fun padded => padded.2 (single padded.1)
  have stored : storable? (valueOf whole : Int) = some (.integer (valueOf whole)) := by
    rw [storable?, if_pos (by omega)]
  have bare : scanFraction ('\n' :: rest) = some ([], '\n' :: rest) := rfl
  have plain : scanExponent ('\n' :: rest) = some ([], '\n' :: rest) := by simp [scanExponent]
  simp [scanDecimal, taken, unpadded, bare, plain, stored]

/-- A number with a point is read up to the end of its line, as the double that is
nearest to it. -/
theorem scanDecimal_pointed (plain : IsPlain whole fraction) (negative : Bool) {value : Float}
    (known : value = Decimal.signed negative
      (Decimal.nearest (valueOf (whole ++ fraction)) (-fraction.length)))
    (finite : value.isInf = false) (rest : List Char) :
    scanDecimal negative (whole ++ '.' :: fraction ++ '\n' :: rest) =
      some (.decimal value, '\n' :: rest) := by
  have taken : scanDigits Char.isDigit (whole ++ '.' :: (fraction ++ '\n' :: rest)) =
      some (whole, '.' :: (fraction ++ '\n' :: rest)) :=
    scanDigits_append plain.digital plain.nonempty (by simp)
  have behind : scanDigits Char.isDigit (fraction ++ '\n' :: rest) = some (fraction, '\n' :: rest) :=
    scanDigits_append plain.digitalFraction plain.nonemptyFraction (by simp)
  have unpadded : ¬ (whole.head? = some '0' ∧ whole.length ≠ 1) :=
    fun padded => padded.2 (plain.single padded.1)
  have pointed : scanFraction ('.' :: (fraction ++ '\n' :: rest)) =
      some ('.' :: fraction, '\n' :: rest) := by
    rw [scanFraction, behind]
    rfl
  have ends : scanExponent ('\n' :: rest) = some ([], '\n' :: rest) := by simp [scanExponent]
  have read : Decimal.read? (whole ++ '.' :: fraction) =
      some (Decimal.nearest (valueOf (whole ++ fraction)) (-fraction.length)) := by
    rw [Decimal.read?_of_denotes (.pointed plain.nonempty plain.digital plain.digitalFraction),
      Decimal.magnitude?_pointed plain.nonempty plain.digital plain.digitalFraction]
  rw [List.append_assoc, List.cons_append]
  simp [scanDecimal, taken, unpadded, pointed, ends, read, ← known, finite]

/-- A number without a sign is none in another base if the character behind its first
digit is not the mark of one. -/
theorem scanNumber_of_isDigit {c : Char} {more : List Char} (digit : c.isDigit = true)
    (decimal : ∀ d ∈ more.head?, d ∉ ['x', 'o', 'b']) :
    scanNumber (c :: more) = scanDecimal false (c :: more) := by
  have letter {d : Char} {rest : List Char} (starts : c :: more = d :: rest) : d.isDigit = true := by
    rwa [← (List.cons.inj starts).1]
  unfold scanNumber
  split
  · next starts => simp [(List.cons.inj starts).2] at decimal
  · next starts => simp [(List.cons.inj starts).2] at decimal
  · next starts => simp [(List.cons.inj starts).2] at decimal
  · rw [Decimal.takeSign_of_isDigit ⟨c, more, rfl, digit⟩]
    split
    · next starts => exact absurd (letter (Prod.mk.inj starts).2) (by decide)
    · next starts => exact absurd (letter (Prod.mk.inj starts).2) (by decide)
    · next starts =>
        obtain ⟨rfl, rfl⟩ := Prod.mk.inj starts
        rfl

/-- A minus in front of a digit is the sign of a number. -/
theorem scanNumber_minus {c : Char} (digit : c.isDigit = true) (more : List Char) :
    scanNumber ('-' :: c :: more) = scanDecimal true (c :: more) := by
  have notInfinity : c ≠ 'i' := by rintro rfl; exact absurd digit (by decide)
  have notNan : c ≠ 'n' := by rintro rfl; exact absurd digit (by decide)
  simp [scanNumber, Decimal.takeSign, notInfinity, notNan]

/-- Further digits and what stands behind them are no mark of another base. -/
theorem head_notMem_marks {digits rest : List Char} {c : Char} (digital : AllDigits digits)
    (other : c ∉ ['x', 'o', 'b']) :
    ∀ d ∈ (digits ++ c :: rest).head?, d ∉ ['x', 'o', 'b'] := by
  cases digits with
  | nil => simpa using other
  | cons first digits =>
      have digit := digital first List.mem_cons_self
      rintro d ⟨rfl⟩ mark
      simp only [List.mem_cons, List.not_mem_nil, or_false] at mark
      rcases mark with rfl | rfl | rfl <;> exact absurd digit (by decide)

/-- A text is a number of a file: whatever lines follow, it is read as a value. -/
structure IsNumber (text : List Char) (value : Value) : Prop where
  starts : ∃ c more, text = c :: more ∧ (c = '-' ∨ c.isDigit = true)
  reads : ∀ rest, scanMomentOrNumber (text ++ '\n' :: rest) = some (value, '\n' :: rest)

/-- A whole number that a file has room for is read back. -/
theorem isNumber_digitsOf {n : Nat} (fits : n < 0x8000000000000000) :
    IsNumber (Decimal.digitsOf n) (.integer n) := by
  have digital := Decimal.allDigits_digitsOf n
  obtain ⟨c, more, split⟩ := List.exists_cons_of_ne_nil (Decimal.digitsOf_ne_nil n)
  have digit : c.isDigit = true := digital c (by simp [split])
  refine ⟨⟨c, more, split, .inr digit⟩, fun rest => ?_⟩
  have single : (Decimal.digitsOf n).head? = some '0' → (Decimal.digitsOf n).length = 1 :=
    fun zero => by_contra fun long => Json.not_padded_digitsOf n ⟨zero, long⟩
  have scanned := scanDecimal_whole digital (Decimal.digitsOf_ne_nil n) single
    (by rwa [Decimal.valueOf_digitsOf]) rest
  rw [Decimal.valueOf_digitsOf] at scanned
  rw [scanMomentOrNumber, skipMoment_digits digital (by decide) (by decide) (by decide)]
  dsimp only
  rw [← scanned, split, List.cons_append]
  rw [split] at digital
  exact scanNumber_of_isDigit digit
    (head_notMem_marks (List.forall_mem_cons.mp digital).2 (by decide))

/-- A finite double is read back. -/
theorem isNumber_configuration {value : Float} (finite : value.isFinite) :
    IsNumber (Decimal.configuration.render value) (.decimal value) := by
  obtain ⟨negative, whole, fraction, plain, text, known⟩ := Decimal.configuration_render finite
  have bounded : value.isInf = false := by
    obtain ⟨minus, mantissa, exponent, parts⟩ := (Decimal.isFinite_iff value).mp finite
    by_contra infinite
    obtain ⟨sign, other⟩ := (Decimal.isInf_iff value).mp (by simpa using infinite)
    rw [parts] at other
    cases other
  obtain ⟨c, more, rfl⟩ := List.exists_cons_of_ne_nil plain.nonempty
  have digit : c.isDigit = true := plain.digital c List.mem_cons_self
  have scanned := scanDecimal_pointed plain negative known bounded
  rw [text]
  cases negative with
  | true =>
      refine ⟨⟨'-', _, rfl, .inl rfl⟩, fun rest => ?_⟩
      rw [if_pos rfl, List.cons_append, scanMomentOrNumber, skipMoment_minus]
      exact (scanNumber_minus digit _).trans (scanned rest)
  | false =>
      refine ⟨⟨c, _, rfl, .inr digit⟩, fun rest => ?_⟩
      have date : skipMoment (c :: more ++ '.' :: fraction ++ '\n' :: rest) = none := by
        rw [List.append_assoc, List.cons_append]
        exact skipMoment_digits plain.digital (by decide) (by decide) (by decide)
      have behind : ∀ d ∈ (more ++ '.' :: fraction ++ '\n' :: rest).head?, d ∉ ['x', 'o', 'b'] := by
        rw [List.append_assoc, List.cons_append]
        exact head_notMem_marks (List.forall_mem_cons.mp plain.digital).2 (by decide)
      rw [if_neg (by decide), scanMomentOrNumber, date]
      exact (scanNumber_of_isDigit digit behind).trans (scanned rest)

end Numbers

section Members

/-- A name that is a key without quotes. -/
structure IsBareKey (name : String) : Prop where
  nonempty : name.toList ≠ []
  bare : ∀ c ∈ name.toList, isBare c = true

/-- A line with a member. -/
def memberLine (name : String) (value : List Char) : List Char :=
  name.toList ++ " = ".toList ++ value ++ ['\n']

/-- The characters of keys are neither blanks, nor do they start headers, comments,
quotes or line endings. -/
theorem ne_of_isBare {c : Char} (bare : isBare c = true) :
    isSpace c = false ∧ c ∉ ['[', '#', '\n', '\r', '"', '\'', '.'] := by
  constructor
  · by_contra space
    simp only [isSpace, Bool.or_eq_true, beq_iff_eq, Bool.not_eq_false] at space
    rcases space with rfl | rfl <;> exact absurd bare (by decide)
  · intro inside
    simp only [List.mem_cons, List.not_mem_nil, or_false] at inside
    rcases inside with rfl | rfl | rfl | rfl | rfl | rfl | rfl <;> exact absurd bare (by decide)

/-- There are no blanks in front of a key. -/
theorem skipSpace_key {name : String} (key : IsBareKey name) (rest : List Char) :
    skipSpace (name.toList ++ rest) = name.toList ++ rest := by
  obtain ⟨c, more, split⟩ := List.exists_cons_of_ne_nil key.nonempty
  obtain ⟨visible, -⟩ := ne_of_isBare (key.bare c (by simp [split]))
  rw [split, List.cons_append, skipSpace, List.dropWhile_cons_of_neg (by simp [visible])]

/-- A bare key is taken up to the blank behind it. -/
theorem scanKeyPart_bare {name : String} (key : IsBareKey name) (rest : List Char) :
    scanKeyPart (name.toList ++ ' ' :: rest) = some (name, ' ' :: rest) := by
  obtain ⟨c, more, split⟩ := List.exists_cons_of_ne_nil key.nonempty
  obtain ⟨-, other⟩ := ne_of_isBare (key.bare c (by simp [split]))
  have span : (name.toList ++ ' ' :: rest).span isBare = (name.toList, ' ' :: rest) := by
    rw [List.span_eq_takeWhile_dropWhile, List.takeWhile_append_of_pos key.bare,
      List.dropWhile_append_of_pos key.bare]
    simp [isBare]
  unfold scanKeyPart
  split
  · next starts =>
      rw [split, List.cons_append] at starts
      exact absurd (List.cons.inj starts).1 (fun quote => other (by simp [quote]))
  · next starts =>
      rw [split, List.cons_append] at starts
      exact absurd (List.cons.inj starts).1 (fun quote => other (by simp [quote]))
  · rw [span]
    simp [key.nonempty]

/-- A bare key is the whole path of its member. -/
theorem scanKey_bare {name : String} (key : IsBareKey name) (rest : List Char) :
    scanKey (name.toList ++ ' ' :: '=' :: rest) = some (([], name), '=' :: rest) := by
  have behind : skipSpace (' ' :: '=' :: rest) = '=' :: rest := rfl
  have parts (fuel : Nat) :
      scanKeyParts (fuel + 1) (name.toList ++ ' ' :: '=' :: rest) = some ([name], '=' :: rest) := by
    simp [scanKeyParts, skipSpace_key key, scanKeyPart_bare key, behind]
  rw [scanKey, maxDepth, parts]
  rfl

/-- A new member is placed behind the others. -/
theorem place_eq_append {root : Members} {name : String} (fresh : root.lookup name = none)
    (value : Value) : place name value root = root ++ [(name, value)] := by
  induction root with
  | nil => rfl
  | cons member root ih =>
      obtain ⟨key, other⟩ := member
      rw [List.lookup_cons] at fresh
      by_cases same : name = key
      · simp [same] at fresh
      · have differs : (name == key) = false := by simpa using same
        rw [differs] at fresh
        rw [place, if_neg (Ne.symm same), ih fresh, List.cons_append]

/-- A new member of a file comes behind the others. -/
theorem addMember_top {root : Members} {name : String} (fresh : root.lookup name = none)
    (value : Value) :
    State.addMember ⟨root, []⟩ [] name value = some ⟨root ++ [(name, value)], []⟩ := by
  simp [State.addMember, change, define, fresh, place_eq_append fresh]

/-- A number in the place of a value. -/
theorem IsNumber.scanValue {text : List Char} {value : Value} (number : IsNumber text value)
    (rest : List Char) (fuel depth : Nat) :
    skipSpace (text ++ '\n' :: rest) = text ++ '\n' :: rest ∧
      scanValue (fuel + 1) depth (text ++ '\n' :: rest) = some (value, '\n' :: rest) := by
  have reads := number.reads rest
  obtain ⟨c, more, rfl, starts⟩ := number.starts
  have other (mark : Char) (is : mark ≠ '-' ∧ mark.isDigit = false) : c ≠ mark := by
    rintro rfl
    rcases starts with minus | digit
    · exact is.1 minus
    · exact absurd digit (by simp [is.2])
  rw [List.cons_append] at reads ⊢
  refine ⟨?_, ?_⟩
  · have visible : isSpace c = false := by
      simp [isSpace, other ' ' (by decide), other '\t' (by decide)]
    exact List.dropWhile_cons_of_neg (by simp [visible])
  · rw [Toml.scanValue]
    simp only [other '"' (by decide), other '\'' (by decide), other '[' (by decide),
      other '\x7b' (by decide), other 't' (by decide), other 'f' (by decide), or_self, if_false]
    exact reads

/-- A line with a number adds a member. -/
theorem scanMemberLine_number {root : Members} {name : String} {text : List Char} {value : Value}
    (key : IsBareKey name) (number : IsNumber text value) (fresh : root.lookup name = none)
    (rest : List Char) :
    scanMemberLine ⟨root, []⟩ (memberLine name text ++ rest) =
      some (⟨root ++ [(name, value)], []⟩, rest) := by
  have shape : memberLine name text ++ rest =
      name.toList ++ ' ' :: '=' :: ' ' :: (text ++ '\n' :: rest) := by
    simp [memberLine]
  have equals : expect '=' ('=' :: ' ' :: (text ++ '\n' :: rest)) =
      some (' ' :: (text ++ '\n' :: rest)) := rfl
  have blank : skipSpace (' ' :: (text ++ '\n' :: rest)) = skipSpace (text ++ '\n' :: rest) := rfl
  obtain ⟨visible, -⟩ := number.scanValue rest 0 0
  have scanned (fuel : Nat) := (number.scanValue rest fuel 0).2
  have ends : endLine? ('\n' :: rest) = some rest := rfl
  rw [shape, scanMemberLine, scanKey_bare key]
  simp [equals, blank, visible, scanned, ends, addMember_top fresh]

/-- A line that starts with a key has a member. -/
theorem scanLines_key {c : Char} (bare : isBare c = true) (fuel : Nat) (state : State)
    (text : List Char) :
    scanLines (fuel + 1) state (c :: text) =
      (scanMemberLine state (c :: text)).bind fun read => scanLines fuel read.1 read.2 := by
  obtain ⟨visible, other⟩ := ne_of_isBare bare
  simp only [List.mem_cons, List.not_mem_nil, or_false, not_or] at other
  have start : skipSpace (c :: text) = c :: text :=
    List.dropWhile_cons_of_neg (by simp [visible])
  rw [scanLines, start]
  simp [other, bind, Option.bind]

/-- The lines of a file with numbers give its members in their order. -/
theorem scanLines_numbers {entries : List (String × List Char × Value)}
    (keys : ∀ entry ∈ entries, IsBareKey entry.1)
    (numbers : ∀ entry ∈ entries, IsNumber entry.2.1 entry.2.2) (root : Members)
    (distinct : (root.map Prod.fst ++ entries.map Prod.fst).Nodup) {fuel : Nat}
    (enough : entries.length < fuel) :
    scanLines fuel ⟨root, []⟩ (entries.flatMap fun entry => memberLine entry.1 entry.2.1) =
      some (root ++ entries.map fun entry => (entry.1, entry.2.2)) := by
  induction entries generalizing root fuel with
  | nil =>
      obtain ⟨steps, rfl⟩ : ∃ steps, fuel = steps + 1 := ⟨fuel - 1, by omega⟩
      simp [scanLines, skipSpace]
  | cons entry entries ih =>
      obtain ⟨steps, rfl⟩ : ∃ steps, fuel = steps + 1 := ⟨fuel - 1, by omega⟩
      obtain ⟨name, text, value⟩ := entry
      obtain ⟨key, otherKeys⟩ := List.forall_mem_cons.mp keys
      obtain ⟨number, otherNumbers⟩ := List.forall_mem_cons.mp numbers
      have fresh : root.lookup name = none := List.lookup_eq_none_iff.mpr fun member inside => by
        have apart := (List.nodup_append.mp distinct).2.2 member.1 (List.mem_map_of_mem inside)
          name (by simp)
        simpa using apart.symm
      obtain ⟨c, more, split⟩ := List.exists_cons_of_ne_nil key.nonempty
      have added := scanMemberLine_number key number fresh
        (entries.flatMap fun entry => memberLine entry.1 entry.2.1)
      have start (rest : List Char) : ∃ tail, memberLine name text ++ rest = c :: tail :=
        ⟨_, by rw [memberLine, split]; rfl⟩
      obtain ⟨tail, known⟩ := start (entries.flatMap fun entry => memberLine entry.1 entry.2.1)
      rw [List.flatMap_cons, known, scanLines_key (key.bare c (by simp [split])), ← known, added]
      have rest := ih otherKeys otherNumbers (root ++ [(name, value)])
        (by simpa using distinct) (by simpa using enough)
      simpa using rest

/-- A file of lines with numbers has these as its members. -/
theorem parse_numbers {entries : List (String × List Char × Value)}
    (keys : ∀ entry ∈ entries, IsBareKey entry.1)
    (numbers : ∀ entry ∈ entries, IsNumber entry.2.1 entry.2.2)
    (distinct : (entries.map Prod.fst).Nodup) :
    parse (String.ofList (entries.flatMap fun entry => memberLine entry.1 entry.2.1)) =
      some (entries.map fun entry => (entry.1, entry.2.2)) := by
  have enough : entries.length ≤
      (entries.flatMap fun entry => memberLine entry.1 entry.2.1).length := by
    have total := List.length_le_sum_of_one_le
      (entries.map fun entry => (memberLine entry.1 entry.2.1).length) fun length inside => by
        obtain ⟨entry, -, rfl⟩ := List.mem_map.mp inside
        simp only [memberLine, List.length_append, List.length_singleton]
        omega
    rwa [List.length_map, ← List.length_flatMap] at total
  have unmarked : (entries.flatMap fun entry => memberLine entry.1 entry.2.1).head? ≠
      some (Char.ofNat 0xFEFF) := by
    cases entries with
    | nil => simp
    | cons entry entries =>
        have key := keys entry List.mem_cons_self
        obtain ⟨c, more, split⟩ := List.exists_cons_of_ne_nil key.nonempty
        have bare := key.bare c (by simp [split])
        rw [List.flatMap_cons, memberLine, split]
        rintro ⟨rfl⟩
        exact absurd bare (by decide)
  rw [parse, String.toList_ofList]
  simp only [if_neg unmarked]
  exact scanLines_numbers keys numbers [] (by simpa using distinct) (by omega)

end Members

end LaserCut.Toml
