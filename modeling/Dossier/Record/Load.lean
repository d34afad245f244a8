import Dossier.Folder
import Dossier.Log

/-!
# Loading records

The records of a program are the files of a folder whose names tell the kind of record; all other
files are passed over, and so are the folders in it.  Files are taken in the order of their names, so
the same folder gives the same records.  The first file that cannot be read ends the loading.
-/

set_option autoImplicit false

namespace Dossier

/-- The format of the file at a path: TOML if its name says so, else JSON. -/
def Format.ofPath (path : String) : Format :=
  match Path.extension? path with
  | some extension => if extension.map Char.toLower == "toml" then .toml else .json
  | none => .json

/-- Why records could not be loaded. -/
inductive LoadError where
  | noFolder (path : String)
  /-- A file could not be read. -/
  | unreadable (path : String) (reason : FolderError)
  /-- A file holds no record of its kind. -/
  | noRecord (path : String) (kind : RecordKind) (reason : Reason)
  deriving DecidableEq, Repr

/-- The wording of an error. -/
def LoadError.message : LoadError → String
  | noFolder path => "Descriptor directory not found at " ++ path
  | unreadable path reason => "Failed to read " ++ path ++ ": " ++ reason.message
  | noRecord path kind reason =>
    "Failed to parse " ++ kind.word ++ " descriptor " ++ path ++ ": " ++ reason.text

namespace Store

/-- The part of the program that speaks of files. -/
def loader : String := "jsonscript::descriptor::store"

/-- The records with those of a file added, and the kind of the file if it has one. -/
def loadFile (s : Store) (f : Folder) (name : String) :
    Logged LoadError (Store × Option RecordKind) := do
  let path := f.pathOf name
  match RecordKind.ofFileName? ((Path.fileName? path).getD "") with
  | none =>
    Logged.log .debug loader "skipping unclassified file" [("file", path)]
    return (s, none)
  | some kind =>
    let text ← Logged.ofExcept (LoadError.unreadable path) (f.read name)
    let s ← Logged.ofExcept (LoadError.noRecord path kind)
      (s.insertText kind (Format.ofPath path) text)
    Logged.log .debug loader "loaded descriptor" [("file", path), ("kind", kind.word)]
    return (s, some kind)

/-- The records with those of files added, one after the other. -/
def loadFiles (f : Folder) : Store → List String → Logged LoadError Store
  | s, [] => return s
  | s, name :: names => do
    let (s, _) ← s.loadFile f name
    loadFiles f s names

end Store

/-- The records of a folder. -/
def Folder.records (f : Folder) : Logged LoadError Store :=
  match f.items? with
  | none => throw (.noFolder f.path)
  | some items => Store.loadFiles f .empty (Folder.fileNames items)

end Dossier
