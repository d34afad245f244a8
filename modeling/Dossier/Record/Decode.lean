import Dossier.Document.Toml
import Dossier.Record.Declared

/-!
# Reading records

A record is a table with named fields, in any order, or in JSON a list of the fields in their order,
from which those at the end may be missing that have a default.  Members with other names are passed
over.

`Reason` says why a document is no record.  The first problem in the order of the text is the one
that counts, and fields that are missing come last, since nobody knows of them before the table ends;
a table that does not end is malformed before that.
-/

set_option autoImplicit false

namespace Dossier

/-- Why a text is no record. -/
inductive Reason where
  /-- A field without a default is missing. -/
  | missing (field : String)
  /-- A field is given twice. -/
  | duplicate (field : String)
  /-- A document of another kind was wanted. -/
  | mismatch (found wanted : String)
  /-- A word means no visibility. -/
  | access (word : String)
  /-- The text is malformed, or a list of fields is too short or too long. -/
  | malformed
  deriving DecidableEq, Repr

/-- The wording of a reason. -/
def Reason.text : Reason → String
  | missing field => "missing field `" ++ field ++ "`"
  | duplicate field => "duplicate field `" ++ field ++ "`"
  | mismatch found wanted => "invalid type: " ++ found ++ ", expected " ++ wanted
  | access word => Visibility.unknownWord word
  | malformed => "syntax"

namespace Decode

/-! ## Values of fields -/

/-- The reason why a document is not what was wanted. -/
def refuse {α : Type} (d : Document) (wanted : String) : Except Reason α :=
  match d.found? with
  | some found => .error (.mismatch found wanted)
  | none => .error .malformed

/-- A text. -/
def text (d : Document) : Except Reason String :=
  match d with
  | .string s => .ok s
  | d => refuse d "a string"

/-- A truth value. -/
def flag (d : Document) : Except Reason Bool :=
  match d with
  | .bool b => .ok b
  | d => refuse d "a boolean"

/-- A word for a visibility. -/
def access (d : Document) : Except Reason Visibility := do
  let word ← text d
  match Visibility.ofWord? word with
  | some v => .ok v
  | none => .error (.access word)

/-- A value or null. -/
def orNull {α : Type} (value : Document → Except Reason α) (d : Document) :
    Except Reason (Option α) :=
  match d with
  | .null => .ok none
  | d => (value d).map some

/-- The values of items, the first problem among them, or else that their list does not end. -/
def each {α : Type} (value : Document → Except Reason α) (complete : Bool) :
    List Document → Except Reason (List α)
  | [] => if complete then .ok [] else .error .malformed
  | d :: ds => do
    let a ← value d
    let rest ← each value complete ds
    .ok (a :: rest)

/-- A list of values. -/
def list {α : Type} (value : Document → Except Reason α) (d : Document) :
    Except Reason (List α) :=
  match d with
  | .list ds complete => each value complete ds
  | d => refuse d "a sequence"

end Decode

/-- The value of a type in a document. -/
def FieldType.ofDocument : (t : FieldType) → Document → Except Reason t.Val
  | text => Decode.text
  | flag => Decode.flag
  | access => Decode.access
  | list item => Decode.list item.ofDocument
  | optional value => Decode.orNull value.ofDocument

namespace Decode

variable {ρ : Type}

/-! ## Fields -/

/-- What the document of a field makes of a record. -/
def put (f : RecordField ρ) (d : Document) : Except Reason (ρ → ρ) :=
  (f.type.ofDocument d).map f.set

/-- Takes the members of a table into a record; `seen` are the fields that were given before. -/
def members (fields : List (RecordField ρ)) : (seen : List String) → ρ →
    List (Option String × Document) → Except Reason (List String × ρ)
  | seen, r, [] => .ok (seen, r)
  | _, _, (none, _) :: _ => .error .malformed
  | seen, r, (some name, d) :: rest =>
    match fields.find? fun f ↦ f.name == name with
    | none => if d.isSound then members fields seen r rest else .error .malformed
    | some f =>
      if seen.contains name then .error (.duplicate name)
      else do
        let put ← put f d
        members fields (name :: seen) (put r) rest

/-- Takes the defaults of the fields that were not given into a record. -/
def defaults (seen : List String) : List (RecordField ρ) → ρ → Except Reason ρ
  | [], r => .ok r
  | f :: fields, r =>
    if seen.contains f.name then defaults seen fields r
    else
      match f.default? with
      | some a => defaults seen fields (f.set a r)
      | none => .error (.missing f.name)

/-- Takes the items of a list into a record. -/
def items (complete : Bool) : List (RecordField ρ) → ρ → List Document → Except Reason ρ
  | [], r, [] => if complete then .ok r else .error .malformed
  | [], _, _ :: _ => .error .malformed
  | f :: fields, r, [] =>
    match f.default?.filter fun _ ↦ complete with
    | some a => items complete fields (f.set a r) []
    | none => .error .malformed
  | f :: fields, r, d :: ds => do
    let put ← put f d
    items complete fields (put r) ds

end Decode

open Decode in
/-- The record in a document. -/
def Declaration.ofDocument {ρ : Type} (D : Declaration ρ) (d : Document) : Except Reason ρ :=
  match d with
  | .table ms complete => do
    let (seen, r) ← members D.fields [] D.blank ms
    if complete then defaults seen D.fields r else .error .malformed
  | .list ds complete => items complete D.fields D.blank ds
  | d => refuse d ("struct " ++ D.kind)

/-- The record of a method in a document. -/
def MethodRecord.ofDocument (d : Document) : Except Reason MethodRecord := declaration.ofDocument d

/-- The record of a class in a document. -/
def ClassRecord.ofDocument (d : Document) : Except Reason ClassRecord := declaration.ofDocument d

/-- The record of a namespace in a document. -/
def NamespaceRecord.ofDocument (d : Document) : Except Reason NamespaceRecord :=
  declaration.ofDocument d

/-! ## Texts -/

/-- The formats in which records and settings are written. -/
inductive Format where
  | json
  | toml
  deriving DecidableEq, Repr

/-- What a reader of documents makes of a text.  In JSON nothing may follow the document, which is
noticed after it. -/
def Format.decode {α : Type} (format : Format) (value : Document → Except Reason α)
    (text : String) : Except Reason α :=
  match format with
  | .json => do
    let (d, isOver) := Document.ofJson text
    let a ← value d
    if isOver then .ok a else .error .malformed
  | .toml =>
    match Document.ofToml? text with
    | some d => value d
    | none => .error .malformed

/-- The records with the one in a text after the others of its kind. -/
def Store.insertText (s : Store) (kind : RecordKind) (format : Format) (text : String) :
    Except Reason Store :=
  match kind with
  | .ofMethod => (format.decode MethodRecord.ofDocument text).map s.addMethod
  | .ofClass => (format.decode ClassRecord.ofDocument text).map s.addClass
  | .ofNamespace => (format.decode NamespaceRecord.ofDocument text).map s.addNamespace

end Dossier
