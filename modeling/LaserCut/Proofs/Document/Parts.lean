/-
# The parts of a document

Points, strokes, rasters and passes are read back from what is written for
them.  The only thing asked of their numbers is that each of them, on its own,
is finite and read back from its own text.
-/

import Mathlib
import LaserCut.Document.Pass
import LaserCut.Document.Raster
import LaserCut.Proofs.Decimal.Double
import LaserCut.Proofs.Json.Reading
import LaserCut.Proofs.Raster

namespace LaserCut

open Json (ReadsAs ReadsFields)

/-- Whole numbers are written with digits and a minus. -/
theorem Json.isNumeric_of_mem_renderInteger {value : Int} {c : Char}
    (inside : c ∈ Json.renderInteger value) : Decimal.IsNumeric c := by
  have digital := Decimal.allDigits_digitsOf value.natAbs
  simp only [Json.renderInteger] at inside
  split_ifs at inside with negative
  · rcases List.mem_cons.mp inside with rfl | digits
    · exact .inr (by simp)
    · exact .inl (digital c digits)
  · exact .inl (digital c inside)

/-- Finite doubles are written with the characters of numbers. -/
theorem Json.isNumeric_of_mem_renderDecimal {value : Float} (finite : value.isFinite)
    {c : Char} (inside : c ∈ Json.renderDecimal value) : Decimal.IsNumeric c := by
  obtain ⟨negative, mantissa, exponent, parts⟩ := (Decimal.isFinite_iff value).mp finite
  rw [Json.renderDecimal, if_pos finite] at inside
  exact Decimal.isNumeric_of_mem_render parts inside

/-- A double is finite and its text in a document is read back as itself. -/
def IsExchanged (value : Float) : Prop :=
  value.isFinite ∧ Json.decode Json.readFloat (Json.decimal value).toCompact = .ok value

/-- Such a double is read back wherever it stands in a document. -/
theorem IsExchanged.reads {value : Float} (exchanged : IsExchanged value) :
    ReadsAs Json.readFloat (.decimal value) value := by
  apply ReadsAs.of_decode
  · intro fault other
    simp [Json.readFloat, Json.Node.refuse, Json.breach]
  · exact fun c => Json.isNumeric_of_mem_renderDecimal exchanged.1
  · exact exchanged.2

/-- Whether both coordinates of a point are read back. -/
def Point.IsExchanged (point : Point Float) : Prop :=
  LaserCut.IsExchanged point.x ∧ LaserCut.IsExchanged point.y

/-- A point is read back. -/
theorem Point.reads {point : Point Float} (exchanged : point.IsExchanged) :
    ReadsAs Point.read point.toJson point :=
  (ReadsAs.list (.cons exchanged.1.reads (.cons exchanged.2.reads .nil))).bind rfl

/-- A stroke is read back point for point. -/
theorem Path.reads {path : Path Float} (exchanged : ∀ point ∈ path, point.IsExchanged) :
    ReadsAs Path.read (Path.toJson path) path :=
  ReadsAs.list_map fun point inside => Point.reads (exchanged point inside)

/-- A pair is read back. -/
theorem Json.ReadsAs.pair {α : Type} {read : Json.Reader α} {first second : Json} {x y : α}
    (left : ReadsAs read first x) (right : ReadsAs read second y) :
    ReadsAs (readPair read) (.array [first, second]) (x, y) :=
  (ReadsAs.vector (.cons left (.cons right .nil)) rfl).bind rfl

/-- Valid samples are read back byte for byte, quotes and backslashes included. -/
theorem Sample.reads {image : List UInt8} (valid : ∀ byte ∈ image, Sample.isValid byte = true) :
    ReadsAs Sample.read (.string (String.ofList (Sample.text image))) image := by
  have number : ∀ byte ∈ image, (Sample.char byte).toNat < 128 := by
    intro byte member
    rw [toNat_char]
    exact (isValid_iff.mp (valid byte member)).2.trans_lt (by decide)
  have back : (text image).map (fun c => UInt8.ofNat c.toNat) = image := by
    rw [text, List.map_map]
    conv_rhs => rw [← List.map_id image]
    apply List.map_congr_left
    intro byte _
    rw [Function.comp_apply, toNat_char, UInt8.ofNat_toNat, id]
  refine (ReadsAs.string _).bind ?_
  have ascii : (text image).all (fun c => c.toNat < 128) = true := by
    simpa [text] using number
  simp only [String.toList_ofList, ascii, back]
  rfl

namespace Raster

/-- Whether the numbers of a raster are read back. -/
structure IsExchanged (raster : Raster) : Prop where
  position : raster.position.IsExchanged
  widthMm : LaserCut.IsExchanged raster.widthMm
  heightMm : LaserCut.IsExchanged raster.heightMm

/-- A valid raster is read back. -/
theorem reads {raster : Raster} (valid : raster.isValid) (exchanged : raster.IsExchanged) :
    ReadsAs Raster.read raster.toJson raster := by
  have position := ReadsAs.pair exchanged.position.1.reads exchanged.position.2.reads
  have sizeMm := ReadsAs.pair exchanged.widthMm.reads exchanged.heightMm.reads
  have sizePx := ReadsAs.pair (ReadsAs.word32 raster.widthPx) (ReadsAs.word32 raster.heightPx)
  have image := Sample.reads (raster.isValid_iff.mp valid).2
  have fields : ReadsFields rasterKind ⟨none, none, none, none⟩
      [("pos", _), ("size_mm", _), ("size_px", _), ("image", _)] ⟨some _, some _, some _, some _⟩ :=
    .cons rfl rfl (position.map _) <| .cons rfl rfl (sizeMm.map _) <|
      .cons rfl rfl (sizePx.map _) <| .cons rfl rfl (image.map _) <| .nil _
  exact fields.reads.bind rfl

end Raster

/-- Reading a number does not depend on how deep it stands. -/
theorem readPassNumber_number (depth : Nat) (numeral : Json.Numeral) :
    readPassNumber depth (.number numeral) = readPassNumber 0 (.number numeral) := by
  cases numeral <;> rfl

namespace Pass

/-- The text of a value of a pass is read as an equal one.  A negative zero is
written as a whole number and loses its sign. -/
def ReadsBackAs (value back : Float) : Prop :=
  Json.decode (readPassNumber 0) (passNumberJson value).toCompact = .ok back ∧ back == value

/-- A value of a pass is finite and read back from its text in a document. -/
def IsExchanged (value : Float) : Prop :=
  value.isFinite ∧ ∃ back, ReadsBackAs value back

/-- Values of a pass are written with the characters of numbers. -/
theorem isNumeric_of_mem_passNumberJson {value : Float} (finite : value.isFinite) {c : Char}
    (inside : c ∈ (passNumberJson value).compact) : Decimal.IsNumeric c := by
  unfold passNumberJson at inside
  split at inside
  · split_ifs at inside
    · exact Json.isNumeric_of_mem_renderInteger inside
    · exact Json.isNumeric_of_mem_renderDecimal finite inside
  · exact Json.isNumeric_of_mem_renderDecimal finite inside

/-- Such a value is read back wherever it stands. -/
theorem IsExchanged.reads {value : Float} (exchanged : IsExchanged value) (depth : Nat) :
    ∃ back, ReadsAs (readPassNumber depth) (passNumberJson value) back ∧
      ReadsBackAs value back := by
  obtain ⟨finite, back, decoded, same⟩ := exchanged
  have refuses : ∀ fault other, readPassNumber 0 (.broken fault) ≠ .ok other := by
    intro fault other
    simp [readPassNumber, readNumberOrText, Json.Node.readThrough, Json.checked, Json.breach, bind,
      Except.bind]
  obtain ⟨numeral, parses, known⟩ := Json.Parses.of_decode refuses
    (fun c => isNumeric_of_mem_passNumberJson finite) decoded
  exact ⟨back, ⟨_, parses, (readPassNumber_number depth numeral).trans known⟩, decoded, same⟩

/-- A pass has the colors of another one and the values that its values are read
back as. -/
structure Agrees (back pass : Pass) : Prop where
  colors : back.colors = pass.colors
  feedrate : ReadsBackAs pass.feedrate back.feedrate
  intensity : ReadsBackAs pass.intensity back.intensity

/-- Where both values are read back bit for bit, the pass is the same. -/
theorem Agrees.eq {back pass : Pass} (agrees : back.Agrees pass)
    (feedrate : ReadsBackAs pass.feedrate pass.feedrate)
    (intensity : ReadsBackAs pass.intensity pass.intensity) : back = pass := by
  obtain ⟨colors, ⟨rate, -⟩, power, -⟩ := agrees
  rw [feedrate.1, Except.ok.injEq] at rate
  rw [intensity.1, Except.ok.injEq] at power
  cases back
  cases pass
  cases colors
  cases rate
  cases power
  rfl

/-- A pass is read back as one that agrees with it. -/
theorem reads {pass : Pass} (feedrate : IsExchanged pass.feedrate)
    (intensity : IsExchanged pass.intensity) (outer : Nat) :
    ∃ back, ReadsAs (Pass.read outer) pass.toJson back ∧ back.Agrees pass := by
  have colors : ReadsAs (Json.readList Json.readString) (.array (pass.colors.map .string))
      pass.colors :=
    ReadsAs.list_map fun color _ => ReadsAs.string color
  obtain ⟨rate, readsRate, sameRate⟩ := feedrate.reads (outer + 1)
  obtain ⟨power, readsPower, samePower⟩ := intensity.reads (outer + 1)
  have fields : ReadsFields (passKind (outer + 1)) ⟨none, none, none⟩
      [("colors", _), ("feedrate", _), ("intensity", _)] ⟨some _, some _, some _⟩ :=
    .cons rfl rfl (colors.map _) <| .cons rfl rfl (readsRate.map _) <|
      .cons rfl rfl (readsPower.map _) <| .nil _
  exact ⟨⟨pass.colors, rate, power⟩, fields.reads.bind rfl, rfl, sameRate, samePower⟩

end Pass

end LaserCut
