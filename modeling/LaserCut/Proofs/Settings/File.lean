/-
# Saving and loading settings

Settings are checked, and their text is made, before the file is touched.  So what
cannot be saved for its own sake leaves the files as they are, and whatever has been
saved is valid and is loaded again.  The file system is only asked to return what was
written under a name; a write that fails may leave the files in any state.
-/

import Mathlib
import LaserCut.Proofs.Attempt
import LaserCut.Proofs.Settings.Json
import LaserCut.Proofs.Settings.Toml

namespace LaserCut

open Attempt

/-- How files are read and written in each state of a file system.  A write that fails
may change the state as well. -/
structure FileSystem (σ : Type) where
  read : σ → FileReader
  write : String → String → σ → Except FileFault Unit × σ

/-- A file system returns what was written under a name. -/
def FileSystem.Returns {σ : Type} (system : FileSystem σ) (name : String) : Prop :=
  ∀ text before after, system.write name text before = (.ok (), after) →
    system.read after name = .ok text

/-- The text of a file that holds the bytes of a text. -/
theorem textOf_toUTF8 (text : String) : textOf (some text.toUTF8) = .ok text := by
  simp only [textOf, String.fromUTF8?, String.toUTF8_eq_toByteArray, dif_pos text.isValidUTF8]
  rfl

namespace Folder

/-- A folder as a file system; a write that fails leaves it as it is. -/
def system : FileSystem Folder where
  read := Folder.read
  write name text folder :=
    match folder.write name text with
    | .ok after => (.ok (), after)
    | .error fault => (.error fault, folder)

/-- A name that leads to a file of the folder itself. -/
structure IsPlainName (name : String) : Prop where
  slash : '/' ∉ name.toList
  nonempty : name ≠ ""
  other : name ≠ "."

/-- Without a slash in the rest of a name, nothing of it is split off. -/
theorem splitOnAux_plain {rest : List Char} (plain : '/' ∉ rest) (front : List Char) :
    String.splitOnAux (.ofList (front ++ rest)) "/" 0 ⟨String.utf8Len front⟩ 0 [] =
      [.ofList (front ++ rest)] := by
  induction rest generalizing front with
  | nil =>
      have ended := (String.atEnd_of_valid front []).mpr rfl
      have whole := String.extract_of_valid [] front []
      simp only [List.nil_append, List.append_nil, String.utf8Len_nil, Nat.zero_add] at ended whole ⊢
      rw [String.splitOnAux, if_pos ended]
      exact congrArg (fun name => [name]) whole
  | cons c rest ih =>
      obtain ⟨other, plain⟩ := not_or.mp (List.mem_cons.not.mp plain)
      have more : ¬ (⟨String.utf8Len front⟩ : String.Pos.Raw).atEnd (.ofList (front ++ c :: rest)) :=
        fun ended => by cases (String.atEnd_of_valid front (c :: rest)).mp ended
      have found := String.get_of_valid front (c :: rest)
      have slash : String.Pos.Raw.get "/" 0 = '/' := by decide +kernel
      have step : (String.Pos.Raw.unoffsetBy ⟨String.utf8Len front⟩ 0).next
          (.ofList (front ++ c :: rest)) = ⟨String.utf8Len (front ++ [c])⟩ := by
        rw [String.utf8Len_append, String.utf8Len_cons, String.utf8Len_nil, Nat.zero_add,
          ← String.next_of_valid front c rest]
        rfl
      have following := ih plain (front ++ [c])
      rw [List.append_assoc, List.singleton_append] at following
      rw [String.splitOnAux, if_neg more, found, slash, List.headD_cons,
        if_neg (by simpa using Ne.symm other), step]
      exact following

variable {name : String}

/-- A plain name is its only part. -/
theorem parts_of_plain (plain : IsPlainName name) : parts name = [name] := by
  have whole := splitOnAux_plain plain.slash []
  rw [List.nil_append, String.ofList_toList] at whole
  have single : name.splitOn "/" = [name] := by
    rw [String.splitOn, if_neg (by decide)]
    exact whole
  simp [parts, single, plain.nonempty, plain.other]

/-- A file is found under its plain name. -/
theorem bytes?_of_plain (plain : IsPlainName name) (folder : Folder) :
    folder.bytes? name = folder.files.lookup name := by
  have front : name.startsWith "/" = false := by
    by_contra starts
    rw [Bool.not_eq_false, String.startsWith_string_iff] at starts
    exact plain.slash (starts.subset (by simp))
  have back (ending : String) (slash : '/' ∈ ending.toList) : name.endsWith ending = false := by
    by_contra ends
    rw [Bool.not_eq_false, String.endsWith_eq_endsWith_toSlice, String.Slice.endsWith_string_iff,
      String.copy_toSlice] at ends
    exact plain.slash (ends.subset slash)
  have path : "/".intercalate (parts name) = name := by
    rw [parts_of_plain plain]
    rfl
  have here : ¬ (name.startsWith "/" ∨ endsAsFolder name) := by
    simp [endsAsFolder, front, back "/" (by simp), back "/." (by simp)]
  rw [bytes?, if_neg here, path]

/-- A folder returns what was written under a plain name. -/
theorem returns (plain : IsPlainName name) : system.Returns name := by
  intro text before after written
  have placed : after = ⟨(name, text.toUTF8) :: before.files.filter fun entry => entry.1 ≠ name⟩ := by
    simp only [system, write, parts_of_plain plain, Prod.mk.injEq, true_and] at written
    exact written.symm
  change textOf (after.bytes? name) = _
  rw [bytes?_of_plain plain, placed, List.lookup_cons_self, textOf_toUTF8]

end Folder

namespace Settings

variable {σ : Type}

/-- Saves settings: the check, the ending of the name and the text come before the
write. -/
def saveTo (system : FileSystem σ) (settings : Settings) (name : String) :
    ExceptT SettingsError (StateM σ) Unit := do
  MonadExcept.ofExcept settings.validate
  let format ← MonadExcept.ofExcept (SettingsFormat.ofName name)
  let text ← MonadExcept.ofExcept (format.encode settings)
  ExceptT.mk fun files =>
    ((system.write name text files).1.mapError .file, (system.write name text files).2)

/-- Saving comes to a write once there is a text, and to nothing otherwise. -/
theorem saveTo_run (system : FileSystem σ) (settings : Settings) (name : String) (files : σ) :
    (settings.saveTo system name).run.run files =
      match settings.fileText name with
      | .error reason => (.error reason, files)
      | .ok text =>
          ((system.write name text files).1.mapError .file, (system.write name text files).2) := by
  rw [saveTo, fileText, run_ofExcept_bind]
  cases settings.validate with
  | error reason => rfl
  | ok =>
      simp only [run_ofExcept_bind]
      cases SettingsFormat.ofName name with
      | error reason => rfl
      | ok format =>
          simp only [bind, Except.bind]
          cases format.encode settings <;> rfl

/-- In a folder, saving gives the folder with the file or leaves it as it is. -/
theorem saveTo_folder (settings : Settings) (name : String) (folder : Folder) :
    (settings.saveTo Folder.system name).run.run folder =
      match settings.save folder name with
      | .ok after => (.ok (), after)
      | .error reason => (.error reason, folder) := by
  rw [saveTo_run, save]
  cases settings.fileText name with
  | error reason => rfl
  | ok text =>
      simp only [Folder.system, bind, Except.bind]
      cases folder.write name text <;> rfl

/-- There is a text for valid settings in the format of the name. -/
theorem fileText_eq_ok_iff {settings : Settings} {name text : String} :
    settings.fileText name = .ok text ↔
      settings.validate = .ok () ∧
        ∃ format, SettingsFormat.ofName name = .ok format ∧ format.encode settings = .ok text := by
  simp only [fileText, bind_eq_ok_iff]
  exact ⟨fun ⟨(), written⟩ => written, fun written => ⟨(), written⟩⟩

/-- Whatever a file holds, only valid settings are loaded from it. -/
theorem load_eq_ok_iff {read : FileReader} {name : String} {loaded : Settings} :
    load read name = .ok loaded ↔
      ∃ text format, read name = .ok text ∧ SettingsFormat.ofName name = .ok format ∧
        format.decode text = .ok loaded ∧ loaded.validate = .ok () := by
  simp only [load, bind_eq_ok_iff, mapError_eq_ok_iff, pure, Except.pure, Except.ok.injEq]
  constructor
  · rintro ⟨text, found, format, known, settings, decoded, ⟨⟩, valid, rfl⟩
    exact ⟨text, format, found, known, decoded, valid⟩
  · rintro ⟨text, format, read, known, decoded, valid⟩
    exact ⟨text, read, format, known, loaded, decoded, (), valid, rfl⟩

/-- Settings that a format is decoded to again: in TOML the very same, and in JSON the
same as numbers if those with a fraction are read back. -/
def Recovers (settings : Settings) (decoded : Except SettingsError Settings) :
    SettingsFormat → Prop
  | .toml => decoded = .ok settings
  | .json => settings.IsReadBack → ∃ loaded, decoded = .ok loaded ∧ loaded.same settings

/-- The text of valid settings is decoded to them. -/
theorem recovers_decode {settings : Settings} (valid : settings.IsValid) {format : SettingsFormat}
    {text : String} (encoded : format.encode settings = .ok text) :
    settings.Recovers (format.decode text) format := by
  cases format with
  | toml =>
      have written : settings.toToml? = some text := by
        simp only [SettingsFormat.encode] at encoded
        split at encoded
        · next known => rw [known, Except.ok.inj encoded]
        · cases encoded
      simp only [Recovers, SettingsFormat.decode, ofToml?_toToml? valid.toIsFinite written]
  | json =>
      obtain rfl : settings.toJson.toPretty = text := Except.ok.inj encoded
      intro back
      obtain ⟨loaded, decoded, same⟩ := exists_decode_toPretty valid.toIsFinite back
      exact ⟨loaded, by rw [SettingsFormat.decode, decoded]; rfl, same⟩

/-- What is decoded to valid settings again is loaded as them. -/
theorem Recovers.load {settings : Settings} (valid : settings.IsValid) {read : FileReader}
    {name text : String} {format : SettingsFormat} (found : read name = .ok text)
    (known : SettingsFormat.ofName name = .ok format)
    (recovers : settings.Recovers (format.decode text) format) :
    settings.Recovers (load read name) format := by
  cases format with
  | toml =>
      exact load_eq_ok_iff.mpr ⟨text, .toml, found, known, recovers, validate_eq_ok_iff.mpr valid⟩
  | json =>
      intro back
      obtain ⟨loaded, decoded, same⟩ := recovers back
      exact ⟨loaded, load_eq_ok_iff.mpr ⟨text, .json, found, known, decoded,
        validate_eq_ok_iff.mpr (valid.of_same same)⟩, same⟩

/-- On a file system that returns what was written under a name, settings that have been
saved under it are valid and are loaded again.  Saving that fails for anything but the
write leaves all files as they are.  And whatever a file holds, no settings are loaded
from it that the check refuses. -/
theorem saved_settings_load (system : FileSystem σ) {name : String}
    (returns : system.Returns name) (settings : Settings) (before : σ) :
    (∀ after, (settings.saveTo system name).run.run before = (.ok (), after) →
        settings.validate = .ok () ∧ ∃ format, SettingsFormat.ofName name = .ok format ∧
          settings.Recovers (load (system.read after) name) format) ∧
      (∀ reason after, (settings.saveTo system name).run.run before = (.error reason, after) →
        (∀ fault, reason ≠ .file fault) → after = before) ∧
      ∀ read other loaded, load read other = .ok loaded → loaded.validate = .ok () := by
  have saving := saveTo_run system settings name before
  refine ⟨fun after saved => ?_, fun reason after failed other => ?_,
    fun read other loaded known => ?_⟩
  · rw [saving] at saved
    cases written : settings.fileText name with
    | error reason =>
        rw [written] at saved
        cases saved
    | ok text =>
        rw [written] at saved
        obtain ⟨result, state⟩ := Prod.mk.inj saved
        obtain ⟨valid, format, known, encoded⟩ := fileText_eq_ok_iff.mp written
        have keeps := validate_eq_ok_iff.mp valid
        have found := returns text before after (Prod.ext (mapError_eq_ok_iff.mp result) state)
        exact ⟨valid, format, known, (recovers_decode keeps encoded).load keeps found known⟩
  · rw [saving] at failed
    cases written : settings.fileText name with
    | error early =>
        rw [written] at failed
        exact (Prod.mk.inj failed).2.symm
    | ok text =>
        rw [written] at failed
        obtain ⟨fault, -, rfl⟩ := mapError_eq_error_iff.mp (Prod.mk.inj failed).1
        exact absurd rfl (other fault)
  · obtain ⟨text, format, -, -, -, valid⟩ := load_eq_ok_iff.mp known
    exact valid

/-- The settings of a machine about which nothing is said are saved in a folder and
loaded from it. -/
theorem saved_settings_load_default :
    Folder.system.Returns "machine.json" ∧ ∃ after loaded,
      (Settings.default.saveTo Folder.system "machine.json").run.run ⟨[]⟩ = (.ok (), after) ∧
        load (Folder.system.read after) "machine.json" = .ok loaded ∧ loaded.same .default := by
  have plain : Folder.IsPlainName "machine.json" := ⟨by simp, by simp, by simp⟩
  have known : SettingsFormat.ofName "machine.json" = .ok .json := by
    rw [SettingsFormat.ofName, endingOf, Folder.parts_of_plain plain]
    decide +kernel
  have valid : Settings.default.IsValid :=
    { kerf := by decide +kernel
      rasterOffset := by decide +kernel
      maxSegmentLength := by decide +kernel
      maxSeekSpeed := by decide
      rasterFeedrate := by decide
      numDigits := by decide
      kerf_pos := by decide +kernel
      rasterOffset_nonneg := by decide +kernel
      rasterLinechars := by decide
      maxSegmentLength_pos := by decide +kernel }
  have written := fileText_eq_ok_iff.mpr
    ⟨validate_eq_ok_iff.mpr valid, .json, known, rfl⟩
  have saved : (Settings.default.saveTo Folder.system "machine.json").run.run ⟨[]⟩ =
      (.ok (), ⟨[("machine.json", Settings.default.toJson.toPretty.toUTF8)]⟩) := by
    rw [saveTo_run, written]
    simp only [Folder.system, Folder.write, Folder.parts_of_plain plain]
    rfl
  have back : Settings.default.IsReadBack :=
    isReadBack_of_isShort ⟨false, 1, 1, by decide, by decide, by decide +kernel⟩
      ⟨false, 40, 0, by decide, by decide, by decide +kernel⟩
      ⟨false, 5, 0, by decide, by decide, by decide +kernel⟩
  obtain ⟨-, format, format_known, recovers⟩ :=
    (saved_settings_load Folder.system (Folder.returns plain) .default ⟨[]⟩).1 _ saved
  rw [known] at format_known
  obtain rfl := Except.ok.inj format_known
  obtain ⟨loaded, found, same⟩ := recovers back
  exact ⟨Folder.returns plain, _, loaded, saved, found, same⟩

end Settings

end LaserCut
