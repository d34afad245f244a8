import Dossier.Text.Line

/-!
# Paths

A path is a text of names with slashes between them.  Empty names and single points lead nowhere,
and two points lead back.
-/

set_option autoImplicit false

namespace Dossier.Path

/-- The path of something in a folder. -/
def join (folder name : String) : String :=
  if folder.isEmpty || folder.endsWith "/" then folder ++ name else folder ++ "/" ++ name

/-- The names in a path that lead somewhere. -/
def names (path : String) : List String :=
  (Text.fields '/' path).filter fun name ↦ name ≠ "" && name ≠ "."

/-- The name of the thing that a path leads to, unless it leads back. -/
def fileName? (path : String) : Option String :=
  (names path).getLast?.filter fun name ↦ name ≠ ".."

/-- What follows the last point of a name; a point at its start does not count. -/
def extensionOf? (name : String) : Option String :=
  match (Text.fields '.' name).reverse with
  | last :: stem :: rest => if rest.isEmpty && stem.isEmpty then none else some last
  | _ => none

/-- What follows the last point in the name of the thing that a path leads to. -/
def extension? (path : String) : Option String := (fileName? path).bind extensionOf?

end Dossier.Path
