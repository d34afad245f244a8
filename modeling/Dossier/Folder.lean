import Dossier.Path
import Dossier.Record.Decode

/-!
# Folders

What a program sees of a folder: the names in it, which of them are files, and the texts of the files.
A `Folder` is a picture taken at one moment, so that whatever is made of it is a function of the
picture.  A `Change` is what may be done to a folder; `Folder.apply` tells how the picture changes or
why it cannot.
-/

set_option autoImplicit false

namespace Dossier

/-- Why something in a folder could not be read or written. -/
inductive FolderError where
  | nothingThere
  | fileInTheWay
  | folderExpected
  | fileExpected
  | notText
  /-- Something else, in words of its own. -/
  | other (text : String)
  deriving DecidableEq, Repr

/-- The wording of an error. -/
def FolderError.message : FolderError → String
  | nothingThere => "No such file or directory (os error 2)"
  | fileInTheWay => "File exists (os error 17)"
  | folderExpected => "Not a directory (os error 20)"
  | fileExpected => "Is a directory (os error 21)"
  | notText => "stream did not contain valid UTF-8"
  | other text => text

/-- What stands in a folder under a name. -/
inductive Item where
  /-- A file and its text. -/
  | file (text : Except FolderError String)
  /-- Another folder. -/
  | folder
  deriving Inhabited

/-- Is it a file? -/
def Item.isFile : Item → Bool
  | .file _ => true
  | .folder => false

/-- What is found at the place of a folder. -/
inductive Contents where
  /-- Nothing, so that the folder can be made. -/
  | absent
  /-- A file is in the way, at this place or further up. -/
  | blocked
  /-- A folder, with what stands in it. -/
  | items (items : List (String × Item))
  deriving Inhabited

/-- A picture of a folder. -/
structure Folder where
  /-- The path of the folder. -/
  path : String
  /-- What is there. -/
  contents : Contents
  deriving Inhabited

namespace Folder

/-- The path of something in the folder. -/
def pathOf (f : Folder) (name : String) : String := Path.join f.path name

/-- All that stands in the folder, if it is there. -/
def items? (f : Folder) : Option (List (String × Item)) :=
  match f.contents with
  | .items items => some items
  | .absent | .blocked => none

/-- What stands in the folder under a name. -/
def item? (f : Folder) (name : String) : Option Item := f.items?.bind fun items ↦ items.lookup name

/-- Is there a file of this name? -/
def hasFile (f : Folder) (name : String) : Bool := (f.item? name).any Item.isFile

/-- The text of a file. -/
def read (f : Folder) (name : String) : Except FolderError String :=
  match f.contents with
  | .absent => .error .nothingThere
  | .blocked => .error .folderExpected
  | .items items =>
    match items.lookup name with
    | none => .error .nothingThere
    | some .folder => .error .fileExpected
    | some (.file text) => text

/-- The names of the files, in order. -/
def fileNames (items : List (String × Item)) : List String :=
  ((items.filter fun item ↦ item.2.isFile).map Prod.fst).mergeSort

end Folder

/-! ## Changes -/

/-- What may be done to a folder. -/
inductive Change where
  /-- Makes a folder in it, if there is none of this name. -/
  | makeFolder (name : String)
  /-- Writes a file, over one that is there. -/
  | write (name text : String)
  deriving DecidableEq, Repr

namespace Folder

/-- The items with one under a name, in place of what stood there. -/
def put (name : String) (item : Item) (items : List (String × Item)) : List (String × Item) :=
  if items.any fun i ↦ i.1 == name then
    items.map fun i ↦ if i.1 == name then (name, item) else i
  else items ++ [(name, item)]

/-- Does one thing to a folder.  A folder that is not there is made along with one in it. -/
def apply (f : Folder) (change : Change) : Except FolderError Folder :=
  match change, f.contents with
  | _, .blocked => .error .folderExpected
  | .makeFolder name, .absent => .ok { f with contents := .items [(name, .folder)] }
  | .write _ _, .absent => .error .nothingThere
  | .makeFolder name, .items items =>
    match items.lookup name with
    | none => .ok { f with contents := .items (put name .folder items) }
    | some .folder => .ok f
    | some (.file _) => .error .fileInTheWay
  | .write name text, .items items =>
    match items.lookup name with
    | some .folder => .error .fileExpected
    | _ => .ok { f with contents := .items (put name (.file (.ok text)) items) }

/-- Does one thing after the other, up to the first that cannot be done; what was done before it
stays done. -/
def applyAll (f : Folder) : List Change → Folder × Except FolderError Unit
  | [] => (f, .ok ())
  | change :: changes =>
    match f.apply change with
    | .ok f => f.applyAll changes
    | .error e => (f, .error e)

end Folder

end Dossier
