import Dossier.Document

/-!
# Writing JSON

Documents as JSON text, one member or item to a line and two blanks for each level.  Strings have
escapes for quotes, backslashes and control characters alone.
-/

set_option autoImplicit false

namespace Dossier

namespace Json

/-- A character within a string. -/
def escapedChar (c : Char) : List Char :=
  if c = '"' then ['\\', '"']
  else if c = '\\' then ['\\', '\\']
  else if c = '\n' then ['\\', 'n']
  else if c = '\r' then ['\\', 'r']
  else if c = '\t' then ['\\', 't']
  else if c = '\x08' then ['\\', 'b']
  else if c = '\x0c' then ['\\', 'f']
  else if c.toNat < 0x20 then
    ['\\', 'u', '0', '0', Text.hexDigit (c.toNat / 16), Text.hexDigit (c.toNat % 16)]
  else [c]

/-- A string with its quotes. -/
def writtenString (s : String) : List Char :=
  '"' :: (s.toList.flatMap escapedChar ++ ['"'])

/-- A new line at a level. -/
def newLine (level : Nat) : List Char := '\n' :: List.replicate (2 * level) ' '

mutual

/-- A document at a level. -/
def written (level : Nat) : Document → List Char
  | .null => "null".toList
  | .bool b => (if b then "true" else "false").toList
  | .int n => (Number.intText n).toList
  | .float shown => shown.toList
  | .string s => writtenString s
  | .list [] _ => "[]".toList
  | .list (item :: items) _ =>
    '[' :: newLine (level + 1) ++ written (level + 1) item ++
      writtenItems (level + 1) items ++ newLine level ++ [']']
  | .table [] _ => ['{', '}']
  | .table ((name, value) :: members) _ =>
    '{' :: newLine (level + 1) ++ writtenString (name.getD "") ++ ':' :: ' ' ::
      written (level + 1) value ++ writtenMembers (level + 1) members ++ newLine level ++ ['}']
  | .unreadable | .broken => []

/-- The items of a list after the first. -/
def writtenItems (level : Nat) : List Document → List Char
  | [] => []
  | item :: items => ',' :: newLine level ++ written level item ++ writtenItems level items

/-- The members of a table after the first. -/
def writtenMembers (level : Nat) : List (Option String × Document) → List Char
  | [] => []
  | (name, value) :: members =>
    ',' :: newLine level ++ writtenString (name.getD "") ++ ':' :: ' ' :: written level value ++
      writtenMembers level members

end

end Json

/-- The document as JSON text. -/
def Document.toJson (d : Document) : String := String.ofList (Json.written 0 d)

end Dossier
