import Dossier.Number.Decimal
import Dossier.Text.Quote

/-!
# Documents

A `Document` is what a text in a data format says: scalars, lists, and tables of named members in
the order of the text.  It also says how far the text could be read: where it is malformed there is a
`broken` document, and every list and table around it is incomplete.  What stands before the
malformed place can so be judged first, as a reader does who reads from the front.

A part of a text may be well-formed and still have no value, like a number that no double comes near;
it is `unreadable`, which matters only to those who want the value.
-/

set_option autoImplicit false

namespace Dossier

/-- What a text in a data format says. -/
inductive Document where
  | null
  | bool (b : Bool)
  | int (n : Int)
  /-- A number that is not written as a whole one; `shown` is how messages write it. -/
  | float (shown : String)
  | string (s : String)
  /-- A list; `complete` if it and everything in it is well-formed. -/
  | list (items : List Document) (complete : Bool)
  /-- A table; a member whose name is well-formed but is no text has none. -/
  | table (members : List (Option String × Document)) (complete : Bool)
  /-- A scalar that is well-formed and has no value. -/
  | unreadable
  /-- The text is malformed here. -/
  | broken
  deriving Inhabited

namespace Document

/-- Is everything well-formed? -/
def isSound : Document → Bool
  | list _ complete => complete
  | table _ complete => complete
  | broken => false
  | _ => true

/-- How messages speak of a document, if it is one. -/
def found? : Document → Option String
  | null => some "null"
  | bool b => some ("boolean " ++ "`" ++ (if b then "true" else "false") ++ "`")
  | int n => some ("integer " ++ "`" ++ Number.intText n ++ "`")
  | float shown => some ("floating point " ++ "`" ++ shown ++ "`")
  | string s => some ("string " ++ Text.quote s)
  | list _ _ => some "sequence"
  | table _ _ => some "map"
  | unreadable | broken => none

end Document

end Dossier
