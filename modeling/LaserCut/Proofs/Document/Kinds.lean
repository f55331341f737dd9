/-
# Values of the wrong kind

A record that breaks a rule on its values is refused by its place in the list.  That
is so for rules that are checked once the document is read: samples that do not fit
their raster, and values of a pass that are infinite or not a number.  A value of a
pass that is no number at all, or an image with a character beyond ASCII, stops the
reading before any record has a place; then the whole text is refused, and the
refusal names no record, not even one that breaks a rule in front of it.
-/

import Mathlib
import LaserCut.Proofs.Job.Import
import LaserCut.Proofs.Json.Demands

namespace LaserCut

open Attempt
open Json (Demands Node)

/-- Whether a value of a pass is a number or the text of one. -/
inductive Pass.IsValue : Node → Prop
  | number (numeral : Json.Numeral) : IsValue (.number numeral)
  | text {text : String} {value : Float}
      (numeric : Decimal.read? (Text.trim text.toList) = some value) :
      IsValue (.string (.ok text))

/-- Whether samples are a text of ASCII characters, be they samples or not. -/
inductive Sample.IsText : Node → Prop
  | ascii {text : String} (ascii : ∀ c ∈ text.toList, c.toNat < 128) : IsText (.string (.ok text))

/-- A value of a pass is read from nothing but numbers and texts of numbers. -/
theorem demands_readPassNumber (depth : Nat) : Demands (readPassNumber depth) Pass.IsValue := by
  intro node value taken
  obtain ⟨_, -, known⟩ := bind_eq_ok_iff.mp taken
  split at known
  · exact .number _
  · exact .number _
  · dsimp only at known
    split at known
    · next numeric => exact .text numeric
    · cases known
  · cases known

/-- Samples are read from nothing but ASCII texts. -/
theorem Sample.demands_read : Demands Sample.read Sample.IsText := by
  intro node samples taken
  obtain ⟨text, known, behind⟩ := bind_eq_ok_iff.mp taken
  unfold Json.readString at known
  split at known
  · cases known
    split_ifs at behind with ascii
    · exact .ascii fun c inside => of_decide_eq_true (List.all_eq_true.mp ascii c inside)
    · cases behind
  · exact absurd known Json.Node.refuse_ne_ok

/-- Whether both values of a pass are numbers or texts of numbers. -/
def Pass.HasValues (depth : Nat) (record : Node) : Prop :=
  ∀ name ∈ ["feedrate", "intensity"], ∀ value, record.HasField (passKind depth) name value →
    IsValue value

/-- A pass is read from nothing but a record with such values. -/
theorem Pass.demands_read (outer : Nat) : Demands (Pass.read outer) (HasValues (outer + 1)) := by
  intro record pass taken name named value found
  have asks : (passKind (outer + 1)).Asks name IsValue := by
    constructor
    · fin_cases named <;> simp [passKind]
    · have values := demands_readPassNumber (outer + 1)
      simp only [passKind, List.forall_mem_cons]
      refine ⟨fun other => ?_, fun _ _ => values.map _, fun _ _ => values.map _,
        List.forall_mem_nil _⟩
      subst other
      simp at named
  exact (asks.read _).bind _ taken value found

/-- Whether the image of a raster is an ASCII text. -/
def Raster.HasText (record : Node) : Prop :=
  ∀ image, record.HasField rasterKind "image" image → Sample.IsText image

/-- A raster is read from nothing but a record with such an image. -/
theorem Raster.demands_read : Demands Raster.read HasText := by
  have asks : rasterKind.Asks "image" Sample.IsText := by
    constructor
    · simp [rasterKind]
    · simp only [rasterKind, List.forall_mem_cons]
      exact ⟨by simp, by simp, by simp, fun _ _ => Sample.demands_read.map _,
        List.forall_mem_nil _⟩
  exact (asks.read _).bind _

/-- Whether some record of a document has a value of the wrong kind. -/
inductive HasStrayValue (document : Node) : Prop
  | pass {passes pass : Node} (known : document.HasField jobKind "passes" passes)
      (listed : passes.HasItem pass) (stray : ¬ Pass.HasValues 3 pass) : HasStrayValue document
  | raster {rasters raster : Node} (known : document.HasField jobKind "rasters" rasters)
      (listed : rasters.HasItem raster) (stray : ¬ Raster.HasText raster) : HasStrayValue document

/-- A document is read only if all values of its records are of their kinds. -/
theorem jobKind_demands (blank : JobDraft) :
    Demands (jobKind.read blank) fun document => ¬ HasStrayValue document := by
  have passes : jobKind.Asks "passes" fun passes => ∀ pass, passes.HasItem pass →
      Pass.HasValues 3 pass := by
    constructor
    · simp [jobKind]
    · simp only [jobKind, List.forall_mem_cons]
      exact ⟨fun _ _ => ((Pass.demands_read 2).list.option nofun).map _, by simp, by simp, by simp,
        List.forall_mem_nil _⟩
  have rasters : jobKind.Asks "rasters" fun rasters => ∀ raster, rasters.HasItem raster →
      Raster.HasText raster := by
    constructor
    · simp [jobKind]
    · simp only [jobKind, List.forall_mem_cons]
      exact ⟨by simp, by simp, fun _ _ => (Raster.demands_read.list.option nofun).map _, by simp,
        List.forall_mem_nil _⟩
  intro document draft taken stray
  cases stray with
  | pass known listed stray => exact stray (passes.read blank taken _ known _ listed)
  | raster known listed stray => exact stray (rasters.read blank taken _ known _ listed)

/-- A document with such a value is refused as a text that is not read, whatever else
is wrong with it and whatever the job is, and the refusal names no record. -/
theorem Job.setDocument_of_hasStrayValue (job : Job) {text : String}
    (stray : HasStrayValue (Json.parse text.toList).1) :
    ∃ problem, job.setDocument text = .error (.json problem) := by
  cases known : draftOf text with
  | error problem => exact ⟨problem, setDocument_eq_error_iff.mpr (.unread known)⟩
  | ok draft =>
      obtain ⟨read, -⟩ := Json.decode_eq_ok_iff.mp known
      exact absurd stray (jobKind_demands _ read)

/-- A word in the second pass hides that the raster lacks its samples. -/
example :
    ((Job.new .default).setDocument (String.join
      ["\x7b\"passes\":[\x7b\"colors\":[],\"feedrate\":1,\"intensity\":0\x7d,",
        "\x7b\"colors\":[],\"feedrate\":\"fast\",\"intensity\":0\x7d],",
        "\"paths_by_color\":\x7b\x7d,\"rasters\":[\x7b\"pos\":[0,0],\"size_mm\":[1,1],",
        "\"size_px\":[1,1],\"image\":\"\"\x7d]\x7d"])).map (fun job => job.passes) =
      .error (.json (.mismatch (.notNumeric "fast"))) := by
  rw [Job.setDocument, JobContent.read, Json.decode, String.toList_join]
  decide +kernel

end LaserCut
