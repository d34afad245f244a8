import Dossier.Log
import Dossier.Record.Encode
import Dossier.Settings.Load

/-!
# A project to start from

The files of a small program that runs: a namespace, a class, an entry method and a method that it
calls, with settings and a folder for scratch work.  They are written only to a folder that has no
settings yet.
-/

set_option autoImplicit false

namespace Dossier

namespace Scaffold

/-- The folder for scratch work. -/
def scratchFolder : String := "Compiler"

/-- The file whose presence tells that a folder holds a project. -/
def settingsFile : String := "compilerSettings.json"

/-- The settings of the project. -/
def settings : Settings where
  entryMethod := "Main"
  entryNamespace := "ExampleProject.Program"
  assemblyName := "ExampleAssembly"
  silentCompilation := false
  visualizeOnError := true

/-- The modules that the program uses. -/
def imports : List String := ["System", "System.Threading"]

/-- The namespace. -/
def exampleNamespace : NamespaceRecord where
  name := "ExampleProject"
  imports := imports

/-- The class. -/
def exampleClass : ClassRecord where
  name := "Program"
  owner := "ExampleProject"
  imports := imports

/-- The entry method. -/
def mainMethod : MethodRecord where
  name := "Main"
  owner := "ExampleProject.Program"
  access := .everyone
  code := "ExampleMethod(\"1\");"

/-- The method that is called. -/
def exampleMethod : MethodRecord where
  name := "ExampleMethod"
  owner := "ExampleProject.Program"
  access := .owner
  isStatic := true
  returns := "System.Int32"
  paramTypes := ["System.String"]
  paramNames := ["exParam"]
  paramDefaults := [some "\"test\""]
  code := "Console.WriteLine(\"Waiting half a second...\");\nThread.Sleep(500);\nreturn 3"

/-- What is done to a folder, in this order. -/
def changes : List Change :=
  [ .makeFolder scratchFolder,
    .write settingsFile settings.toDocument.toJson,
    .write "Namespace-ExampleProject.json" exampleNamespace.toDocument.toJson,
    .write "Class-Program.json" exampleClass.toDocument.toJson,
    .write "Method-Main.json" mainMethod.toDocument.toJson,
    .write "Method-Example.json" exampleMethod.toDocument.toJson ]

end Scaffold

/-- Why a folder did not become a project. -/
inductive ScaffoldError where
  /-- The folder holds a project. -/
  | alreadyThere (path : String)
  /-- Something could not be written. -/
  | unwritable (reason : FolderError)
  deriving DecidableEq, Repr

/-- The wording of an error. -/
def ScaffoldError.message : ScaffoldError → String
  | alreadyThere path => "Project already initialized at " ++ path
  | unwritable reason => reason.message

namespace Folder

/-- Does the folder hold a project? -/
def isProject (f : Folder) : Bool := (f.item? Scaffold.settingsFile).isSome

/-- What has to be done to make a project of a folder. -/
def scaffoldChanges (f : Folder) : List Change := if f.isProject then [] else Scaffold.changes

/-- Tells of a folder that became a project, or why it did not; `written` is what came of the
changes. -/
def scaffolded (f : Folder) (written : Except FolderError Unit) : Logged ScaffoldError Unit := do
  if f.isProject then throw (.alreadyThere (f.pathOf Scaffold.settingsFile))
  Logged.ofExcept .unwritable written
  Logged.log .info "jsonscript::init" ("initialized project in " ++ f.path)

/-- Makes a project of a folder. -/
def init (f : Folder) : Folder × Logged ScaffoldError Unit :=
  let (changed, written) := f.applyAll f.scaffoldChanges
  (changed, f.scaffolded written)

end Folder

end Dossier
