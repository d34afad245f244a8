import Dossier.Folder
import Dossier.Settings

/-!
# Loading settings

The settings of a folder are in one of two files; if both are there, the first one counts.  A folder
may go without if the run is told at least a part of its entry point.
-/

set_option autoImplicit false

namespace Dossier

/-- The files that may hold settings, the one that counts first, with their formats. -/
def settingsFiles : List (String × Format) :=
  [("compilerSettings.json", .json), ("compilerSettings.toml", .toml)]

/-- Why there is no configuration. -/
inductive ConfigError where
  /-- There is no file with settings. -/
  | missing (folder : String)
  /-- The file could not be read. -/
  | unreadable (path : String) (reason : FolderError)
  /-- The file holds no settings. -/
  | noSettings (path : String) (reason : Reason)
  /-- The settings cannot be run. -/
  | invalid (e : SettingsError)
  deriving DecidableEq, Repr

/-- The wording of an error. -/
def ConfigError.message : ConfigError → String
  | missing folder =>
    "No compiler settings found in " ++ folder ++
      "; expected compilerSettings.json or compilerSettings.toml"
  | unreadable path reason => "Failed to read " ++ path ++ ": " ++ reason.message
  | noSettings path reason => "Failed to parse " ++ path ++ ": " ++ reason.text
  | invalid e => e.message

namespace Folder

/-- The settings of a folder, if it has any. -/
def settings? (f : Folder) : Except ConfigError (Option Settings) :=
  match settingsFiles.find? fun file ↦ f.hasFile file.1 with
  | none => .ok none
  | some (name, format) =>
    match f.read name with
    | .error reason => .error (.unreadable (f.pathOf name) reason)
    | .ok text =>
      match format.decode Settings.ofDocument text with
      | .ok s => .ok (some s)
      | .error reason => .error (.noSettings (f.pathOf name) reason)

/-- The configuration for a run of a folder, in which `overrides` win. -/
def config (f : Folder) (overrides : Settings) : Except ConfigError Config := do
  let settings ←
    match ← f.settings? with
    | some s => .ok (s.merge overrides)
    | none =>
      if overrides.entryNamespace.isSome || overrides.entryMethod.isSome then .ok overrides
      else .error (.missing f.path)
  settings.check.mapError .invalid

end Folder

end Dossier
