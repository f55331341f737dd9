/-
# Settings files

A file holds settings in the format that its name ends in.  Settings with a
fault are neither written nor accepted, and a file is touched only after
everything else has gone well.
-/

import LaserCut.Document.Settings
import LaserCut.Settings.Toml

namespace LaserCut

/-- Why a file cannot be read or written. -/
inductive FileFault
  | missing
  /-- The bytes are not UTF-8. -/
  | notText
  deriving DecidableEq

/-- How files are read: the text under a name. -/
abbrev FileReader :=
  String → Except FileFault String

/-- The text of a file, from its bytes if it is there. -/
def textOf : Option ByteArray → Except FileFault String
  | none => .error .missing
  | some bytes =>
      match String.fromUTF8? bytes with
      | none => .error .notText
      | some text => .ok text

/-- A folder: the bytes of its files by name. -/
structure Folder where
  files : List (String × ByteArray)

namespace Folder

/-- The parts of a name between slashes, without those that mean the folder
itself. -/
def parts (name : String) : List String :=
  (name.splitOn "/").filter fun part => part ≠ "" ∧ part ≠ "."

/-- Whether a name ends as only the name of a folder can. -/
def endsAsFolder (name : String) : Bool :=
  name.endsWith "/" || name.endsWith "/."

/-- The bytes of a file.  Names lead from the folder on, never from the root. -/
def bytes? (folder : Folder) (name : String) : Option ByteArray :=
  if name.startsWith "/" ∨ endsAsFolder name then none
  else folder.files.lookup ("/".intercalate (parts name))

/-- Reads a file as text. -/
def read (folder : Folder) : FileReader := fun name =>
  textOf (folder.bytes? name)

/-- Writes a file.  A name that leads into another folder fails, because there
is none. -/
def write (folder : Folder) (name text : String) : Except FileFault Folder :=
  match parts name with
  | [file] => .ok ⟨(file, text.toUTF8) :: folder.files.filter fun entry => entry.1 ≠ file⟩
  | _ => .error .missing

end Folder

/-- The formats of settings files. -/
inductive SettingsFormat
  | json
  | toml
  deriving DecidableEq

/-- Why settings are not loaded or saved. -/
inductive SettingsError
  | invalid (fault : SettingFault)
  /-- The ending of the name is that of no format; a name may have none. -/
  | unsupported (ending : Option String)
  | file (fault : FileFault)
  | json (problem : Json.Problem)
  | tomlText
  /-- TOML has no room for one of the values. -/
  | tomlValue
  deriving DecidableEq

/-- The text about settings that are not loaded or saved.  What is wrong with
the text of a file is told only if it is JSON of the wrong kind. -/
def SettingsError.message : SettingsError → String
  | .invalid fault => "Invalid setting '" ++ fault.key.name ++ "': " ++ fault.rule.text
  | .unsupported ending => "Unsupported settings format: " ++ ending.getD "<none>"
  | .file .missing => "I/O error: No such file or directory (os error 2)"
  | .file .notText => "I/O error: stream did not contain valid UTF-8"
  | .json (.breach _) => "JSON error"
  | .json (.mismatch mismatch) => "JSON error: " ++ mismatch.message
  | .tomlText => "TOML error"
  | .tomlValue => "TOML error"

/-- What a file name ends in: the part after its last dot, unless that dot comes
first. -/
def endingOf (name : String) : Option String := do
  let file ← (Folder.parts name).getLast?
  if file = ".." then none
  let reversed := file.toList.reverse
  match reversed.dropWhile (· ≠ '.') with
  | [] => none
  | [_] => none
  | _ => some (String.ofList (reversed.takeWhile (· ≠ '.')).reverse)

namespace SettingsFormat

/-- The format of a file. -/
def ofName (name : String) : Except SettingsError SettingsFormat :=
  match endingOf name with
  | some "json" => .ok .json
  | some "toml" => .ok .toml
  | other => .error (.unsupported other)

/-- Reads settings in a format. -/
def decode (format : SettingsFormat) (text : String) : Except SettingsError Settings :=
  match format with
  | .json => (Json.decode Settings.read text).mapError .json
  | .toml =>
      match Settings.ofToml? text with
      | some settings => .ok settings
      | none => .error .tomlText

/-- Writes settings in a format. -/
def encode (format : SettingsFormat) (settings : Settings) : Except SettingsError String :=
  match format with
  | .json => .ok settings.toJson.toPretty
  | .toml =>
      match settings.toToml? with
      | some text => .ok text
      | none => .error .tomlValue

end SettingsFormat

namespace Settings

/-- Refuses settings with a fault. -/
def validate (settings : Settings) : Except SettingsError Unit :=
  match settings.fault? with
  | some fault => .error (.invalid fault)
  | none => .ok ()

/-- Loads settings: the file is read first, then its name is looked at. -/
def load (read : FileReader) (name : String) : Except SettingsError Settings := do
  let text ← (read name).mapError .file
  let format ← SettingsFormat.ofName name
  let settings ← format.decode text
  settings.validate
  return settings

/-- The text of a settings file with a name. -/
def fileText (settings : Settings) (name : String) : Except SettingsError String := do
  settings.validate
  let format ← SettingsFormat.ofName name
  format.encode settings

/-- Saves settings; nothing is written unless there is a text to write. -/
def save (settings : Settings) (folder : Folder) (name : String) :
    Except SettingsError Folder := do
  let text ← settings.fileText name
  (folder.write name text).mapError .file

end Settings

end LaserCut
