import Dossier.Response

/-!
# The program

Takes a picture of the folder that the command line names, does to it what the command asks for, and
writes the answer.  Only the files and folders that stand directly in the folder are in the picture.
-/

set_option autoImplicit false

namespace Dossier

/-- The error of the file system in words. -/
def FolderError.ofIO : IO.Error → FolderError
  | .noFileOrDirectory .. => .nothingThere
  | .alreadyExists .. => .fileInTheWay
  | e => .other e.toString

/-- Runs an action and keeps its error. -/
def attempt {α : Type} (action : IO α) : IO (Except FolderError α) := do
  match ← action.toBaseIO with
  | .ok a => return .ok a
  | .error e => return .error (FolderError.ofIO e)

/-- The text of a file. -/
def readText (path : String) : IO (Except FolderError String) := do
  match ← attempt (IO.FS.readBinFile path) with
  | .error e => return .error e
  | .ok bytes =>
    match String.fromUTF8? bytes with
    | some text => return .ok text
    | none => return .error .notText

/-- A picture of a folder. -/
def takePicture (path : String) : IO Folder := do
  let place := (← IO.currentDir) / path
  if ← place.isDir then
    let mut items := #[]
    for entry in ← place.readDir do
      match (← entry.path.metadata).type with
      | .file => items := items.push (entry.fileName, .file (← readText (Path.join path entry.fileName)))
      | .dir => items := items.push (entry.fileName, .folder)
      | _ => pure ()
    return ⟨path, .items items.toList⟩
  else
    let isThere ← place.pathExists
    return ⟨path, if isThere then .blocked else .absent⟩

/-- Does one thing to the folder at a path. -/
def make (path : String) : Change → IO (Except FolderError Unit)
  | .makeFolder name => attempt (IO.FS.createDirAll (Path.join path name))
  | .write name text => attempt (IO.FS.writeFile (Path.join path name) text)

/-- Does one thing after the other, up to the first that fails. -/
def makeAll (path : String) : List Change → IO (Except FolderError Unit)
  | [] => return .ok ()
  | change :: changes => do
    match ← make path change with
    | .ok _ => makeAll path changes
    | .error e => return .error e

/-- The answer to the words of the command line. -/
def answer (words : List String) : IO Response := do
  match CommandLine.read words with
  | .error stop => return Response.ofStop stop
  | .ok command =>
    let folder ← takePicture command.folder
    let written ← makeAll command.folder (command.changes folder)
    return command.respond folder written

end Dossier

/-- Answers the words of the command line. -/
def main (words : List String) : IO UInt32 := do
  let response ← Dossier.answer words
  (← IO.getStdout).putStr response.output
  (← IO.getStderr).putStr response.errors
  return UInt32.ofNat response.status
