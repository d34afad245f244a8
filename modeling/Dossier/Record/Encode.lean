import Dossier.Document.Write
import Dossier.Record.Declared

/-!
# Writing records

A record as a document: its fields in their order, except for those whose value is left out.
-/

set_option autoImplicit false

namespace Dossier

/-- A table of members that all have a name. -/
def Document.ofMembers (members : List (String × Document)) : Document :=
  .table (members.map fun m ↦ (some m.1, m.2)) true

/-- A value as a document; null where there is none. -/
def FieldType.toDocument : (t : FieldType) → t.Val → Document
  | text, s => .string s
  | flag, b => .bool b
  | access, v => .string v.word
  | list item, as => .list (as.map item.toDocument) true
  | optional value, a? => (a?.map value.toDocument).getD .null

/-- A record as a document. -/
def Declaration.toDocument {ρ : Type} (D : Declaration ρ) (r : ρ) : Document :=
  .ofMembers <| (D.fields.filter fun f ↦ !f.isOmitted (f.get r)).map fun f ↦
    (f.name, f.type.toDocument (f.get r))

/-- The record of a method as a document. -/
def MethodRecord.toDocument (r : MethodRecord) : Document := declaration.toDocument r

/-- The record of a class as a document. -/
def ClassRecord.toDocument (r : ClassRecord) : Document := declaration.toDocument r

/-- The record of a namespace as a document. -/
def NamespaceRecord.toDocument (r : NamespaceRecord) : Document := declaration.toDocument r

end Dossier
