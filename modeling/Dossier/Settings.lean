import Dossier.Drive
import Dossier.Record.Decode
import Dossier.Record.Encode
import Dossier.Text.Letter

/-!
# Settings

Settings say what to run and how.  All of them are optional, so that those of a folder can be joined
with those that are given for one run; what is given for the run wins.

`Settings.check` makes a `Config` of them.

* The entry class must be named with its namespace: names with points between them, two at least.
* The entry method must be a name.
* Blanks around the two do not count; a setting of blanks alone is a missing one.
-/

set_option autoImplicit false

namespace Dossier

/-- What may be said about a run. -/
structure Settings where
  /-- The method to enter. -/
  entryMethod : Option String := none
  /-- The class to enter, with its namespace. -/
  entryNamespace : Option String := none
  /-- The name of the assembly. -/
  assemblyName : Option String := none
  /-- Are only warnings and errors logged? -/
  silentCompilation : Option Bool := none
  /-- Is the program shown when it cannot be compiled? -/
  visualizeOnError : Option Bool := none
  /-- Does the program run without the records that have no place in it? -/
  tolerateOrphans : Option Bool := none
  deriving DecidableEq, Repr

namespace Settings

/-- Nothing is said. -/
def empty : Settings := {}

/-- These settings, with `overrides` in place of what both say something about. -/
def merge (s overrides : Settings) : Settings where
  entryMethod := overrides.entryMethod <|> s.entryMethod
  entryNamespace := overrides.entryNamespace <|> s.entryNamespace
  assemblyName := overrides.assemblyName <|> s.assemblyName
  silentCompilation := overrides.silentCompilation <|> s.silentCompilation
  visualizeOnError := overrides.visualizeOnError <|> s.visualizeOnError
  tolerateOrphans := overrides.tolerateOrphans <|> s.tolerateOrphans

/-! ## Documents -/

/-- The fields in which settings are written; what is not said is left out. -/
def declaration : Declaration Settings where
  kind := "RawSettings"
  fields :=
    [ { name := "EntryMethod", type := .optional .text, default? := some none
        get := fun s ↦ s.entryMethod, set := fun v s ↦ { s with entryMethod := v }
        isOmitted := Option.isNone },
      { name := "EntryNamespace", type := .optional .text, default? := some none
        get := fun s ↦ s.entryNamespace, set := fun v s ↦ { s with entryNamespace := v }
        isOmitted := Option.isNone },
      { name := "AssemblyName", type := .optional .text, default? := some none
        get := fun s ↦ s.assemblyName, set := fun v s ↦ { s with assemblyName := v }
        isOmitted := Option.isNone },
      { name := "SilentCompilation", type := .optional .flag, default? := some none
        get := fun s ↦ s.silentCompilation, set := fun v s ↦ { s with silentCompilation := v }
        isOmitted := Option.isNone },
      { name := "VisualizeOnError", type := .optional .flag, default? := some none
        get := fun s ↦ s.visualizeOnError, set := fun v s ↦ { s with visualizeOnError := v }
        isOmitted := Option.isNone },
      { name := "TolerateOrphans", type := .optional .flag, default? := some none
        get := fun s ↦ s.tolerateOrphans, set := fun v s ↦ { s with tolerateOrphans := v }
        isOmitted := Option.isNone } ]
  blank := empty

/-- The settings in a document. -/
def ofDocument (d : Document) : Except Reason Settings := declaration.ofDocument d

/-- The settings as a document. -/
def toDocument (s : Settings) : Document := declaration.toDocument s

end Settings

/-! ## Checking -/

/-- Why settings cannot be run. -/
inductive SettingsError where
  | missingEntryNamespace
  | missingEntryMethod
  /-- The entry class is given without a namespace. -/
  | unqualified (entry : String)
  /-- A part of the name of the entry class is no name. -/
  | badSegment (entry segment : String)
  /-- The entry method is no name. -/
  | badMethod (method : String)
  deriving DecidableEq, Repr

/-- The wording of an error. -/
def SettingsError.message : SettingsError → String
  | missingEntryNamespace => "A valid entry namespace must be specified (EntryNamespace)"
  | missingEntryMethod => "A valid entry method must be specified (EntryMethod)"
  | unqualified entry =>
    "Invalid entry namespace '" ++ entry ++ "': expected the form Namespace.Type"
  | badSegment entry segment =>
    "Invalid entry namespace '" ++ entry ++ "': " ++
      (if segment.isEmpty then "empty name segment" else "'" ++ segment ++ "' is not a valid name")
  | badMethod method => "Invalid entry method '" ++ method ++ "': must be a bare method name"

/-- Is the text a name? -/
def isName (s : String) : Bool :=
  match s.toList with
  | [] => false
  | c :: cs => Text.isNameStart c && cs.all Text.isNameChar

namespace Settings

/-- A text without the blanks around it, if anything is left. -/
def stated? (text : Option String) : Option String :=
  (text.map Text.trim).filter fun s ↦ !s.isEmpty

/-- Checks the name of the entry class. -/
def checkEntry (entry : String) : Except SettingsError Unit :=
  let segments := Text.fields '.' entry
  if segments.length < 2 then .error (.unqualified entry)
  else
    match segments.find? fun s ↦ !isName s with
    | some segment => .error (.badSegment entry segment)
    | none => .ok ()

/-- The configuration that settings describe. -/
def check (s : Settings) : Except SettingsError Config := do
  let some entryType := stated? s.entryNamespace | throw .missingEntryNamespace
  let some entryMethod := stated? s.entryMethod | throw .missingEntryMethod
  checkEntry entryType
  if isName entryMethod then
    .ok
      { entryType
        entryMethod
        assemblyName :=
          (s.assemblyName.filter fun name ↦ !(Text.trim name).isEmpty).getD defaultAssemblyName
        silent := s.silentCompilation.getD false
        visualizeOnError := s.visualizeOnError.getD false
        tolerateOrphans := s.tolerateOrphans.getD false }
  else throw (.badMethod entryMethod)

end Settings

end Dossier
