import Verbatim.Json.Reader
import Verbatim.Json.Writer
import Verbatim.Settings.Coercion
import Verbatim.Storage.Folder

/-!
# Settings files

Settings are kept in a file as a raw object; settings that the file leaves out have their defaults.

## Main definitions

* `Settings.load`: the settings in a file
* `SettingsError`: what is wrong with a file of settings
* `saveFields`: write fields into a file
-/

namespace Verbatim

/-- What is wrong with a file of settings. -/
inductive SettingsError where
  | missing (name : FileName)
  /-- The file holds no JSON. -/
  | json (error : Json.ReadError)
  | undecodable (error : Text.DecodeError)
  /-- The file holds JSON, but no object. -/
  | notObject
  | faults (faults : List SettingFault)

/-- The heading over a list of faults. -/
def faultsHeading (faults : List SettingFault) : String :=
  let plural := if faults.length = 1 then "" else "s"
  s!"{faults.length} validation error{plural} for ComposerConfig"

/-- The text of the error, its first line where there are more. -/
def SettingsError.message : SettingsError → String
  | .missing name => s!"Configuration file not found: {name.text}"
  | .json (.tooLong digits) => s!"Validation error: {(Json.ReadError.tooLong digits).message}"
  | .json error => s!"Invalid JSON: {error.message}"
  | .undecodable error => s!"Validation error: {error.message}"
  | .notObject => "Configuration must be a JSON object"
  | .faults found => s!"Validation error: {faultsHeading found}"

namespace Settings

/-- The settings that a text holds. -/
def ofText (text : String) : Except SettingsError Settings :=
  match Json.read text with
  | .error e => .error (.json e)
  | .ok (.object fields) => (Settings.read fields).mapError .faults
  | .ok _ => .error .notObject

/-- The settings in a file. Where the file cannot be asked for or opened at all, the whole result is
that error. -/
def load {m : Type → Type} [Monad m] [Files m] (name : FileName) :
    m (Except FileError (Except SettingsError Settings)) := do
  match ← Files.entry name with
  | .error e => return .error e
  | .ok .missing => return .ok (.error (.missing name))
  | .ok _ =>
    match ← Files.read name with
    | .ok text => return .ok (ofText text)
    | .error (.undecodable e) => return .ok (.error (.undecodable e))
    | .error e => return .error e

end Settings

/-- Write fields into a file, and make the folders above it. -/
def saveFields {m : Type → Type} [Files m] (fields : List (String × Json))
    (name : FileName) : m (Except FileError Unit) :=
  Files.writeDeep name (Json.pretty 2 (.object fields))

end Verbatim
