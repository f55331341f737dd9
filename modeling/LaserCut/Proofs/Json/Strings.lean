/-
# Strings as they are written and read

A character is escaped on its own and no escape makes half of a surrogate pair,
so the parts that the scanner collects are the characters that were written,
whatever text stands between the quotes.
-/

import Mathlib
import LaserCut.Json.Scanner
import LaserCut.Json.Value

namespace LaserCut.Json

/-- The two digits of a control character denote its number. -/
theorem numberIn?_control {n : Nat} (control : n < 32) :
    Text.numberIn? 16 ['0', '0', Text.hexDigit (n / 16), Text.hexDigit (n % 16)] = some n := by
  have zero : Text.hexValue? '0' = some 0 := rfl
  have high := Text.hexValue?_hexDigit (show n / 16 < 16 by omega)
  have low := Text.hexValue?_hexDigit (show n % 16 < 16 by omega)
  simp [Text.numberIn?, zero, high, low]
  omega

/-- No control character is half of a pair. -/
theorem pieceOf_control {c : Char} (control : c.toNat < 32) : pieceOf c.toNat = .char c := by
  have below : ¬ 0xD800 ≤ c.toNat := by omega
  rw [pieceOf, if_neg fun range => below range.1, Char.ofNat_toNat]

/-- A character that needs no escape stands for itself. -/
theorem scanPieces_plain {pieces : List Piece} {c : Char} {rest : List Char}
    (quote : c ≠ '"') (slash : c ≠ '\\') (printable : ¬ c.toNat < 32) :
    scanPieces pieces (c :: rest) = scanPieces (.char c :: pieces) rest := by
  rw [scanPieces.eq_def]
  split <;> simp_all

/-- A letter after a backslash stands for the character that it means. -/
theorem scanPieces_letter {letter meant : Char} (known : escaped? letter = some meant)
    (pieces : List Piece) (rest : List Char) :
    scanPieces pieces ('\\' :: letter :: rest) = scanPieces (.char meant :: pieces) rest := by
  rw [scanPieces.eq_def]
  simp [known]

/-- Four hexadecimal digits stand for the part of a string that they denote. -/
theorem scanPieces_unit {a b c d : Char} {unit : Nat}
    (known : Text.numberIn? 16 [a, b, c, d] = some unit) (pieces : List Piece) (rest : List Char) :
    scanPieces pieces ('\\' :: 'u' :: a :: b :: c :: d :: rest) =
      scanPieces (pieceOf unit :: pieces) rest := by
  rw [scanPieces.eq_def]
  simp [known, escaped?]

/-- A written character is read as itself. -/
theorem scanPieces_escapeChar (pieces : List Piece) (c : Char) (rest : List Char) :
    scanPieces pieces (escapeChar c ++ rest) = scanPieces (.char c :: pieces) rest := by
  unfold escapeChar
  split_ifs with quote slash feed carriage tab backspace page control
  · subst quote; exact scanPieces_letter rfl pieces rest
  · subst slash; exact scanPieces_letter rfl pieces rest
  · subst feed; exact scanPieces_letter rfl pieces rest
  · subst carriage; exact scanPieces_letter rfl pieces rest
  · subst tab; exact scanPieces_letter rfl pieces rest
  · have known : Char.ofNat 8 = c := by rw [← backspace, Char.ofNat_toNat]
    exact scanPieces_letter (known ▸ rfl) pieces rest
  · have known : Char.ofNat 12 = c := by rw [← page, Char.ofNat_toNat]
    exact scanPieces_letter (known ▸ rfl) pieces rest
  · rw [← pieceOf_control control]
    exact scanPieces_unit (numberIn?_control control) pieces rest
  · exact scanPieces_plain quote slash control

/-- Written characters up to the closing quote are read as themselves. -/
theorem scanPieces_escaped (text rest : List Char) (pieces : List Piece) :
    scanPieces pieces (text.flatMap escapeChar ++ '"' :: rest) =
      ((text.map .char).reverse ++ pieces, .ok rest) := by
  induction text generalizing pieces with
  | nil => simp [scanPieces]
  | cons c text ih =>
      rw [List.flatMap_cons, List.append_assoc, scanPieces_escapeChar, ih]
      simp

/-- Characters are joined as they are. -/
theorem joinPieces_chars (text : List Char) : joinPieces none (text.map .char) = .ok text := by
  induction text with
  | nil => rfl
  | cons c text ih => rw [List.map_cons, joinPieces, ih]; rfl

/-- A written string is read as itself, up to its closing quote. -/
theorem scanString_escaped (text : String) (rest : List Char) :
    scanString (text.toList.flatMap escapeChar ++ '"' :: rest) = .ok (.ok text, rest) := by
  have joined := joinPieces_chars text.toList
  simp [scanString, scanPieces_escaped, joined, Except.map]

end LaserCut.Json
