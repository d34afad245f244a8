import Dossier.Record

/-!
# What records declare

A record declares its fields: their order, the names and types that they have in files, the fields
that a file may leave out and those that are not written when there is nothing to say.  Records are
written (`Dossier.Record.Encode`) and read (`Dossier.Record.Decode`) by their declarations alone, so
that a field that is not written can come back only as its default.
-/

set_option autoImplicit false

namespace Dossier

/-- The types of fields. -/
inductive FieldType where
  | text
  | flag
  /-- A visibility, which stands in files as its word. -/
  | access
  | list (item : FieldType)
  | optional (value : FieldType)
  deriving DecidableEq, Repr

/-- The values of a type. -/
abbrev FieldType.Val : FieldType → Type
  | text => String
  | flag => Bool
  | access => Visibility
  | list item => List item.Val
  | optional value => Option value.Val

/-- A field of a record of type `ρ`. -/
structure RecordField (ρ : Type) where
  /-- Its name in files. -/
  name : String
  /-- The type of its values. -/
  type : FieldType
  /-- Its value in a record. -/
  get : ρ → type.Val
  /-- The record with another value of it. -/
  set : type.Val → ρ → ρ
  /-- What it is when a file leaves it out; it must be given if there is no default. -/
  default? : Option type.Val
  /-- Is a value left out of files? -/
  isOmitted : type.Val → Bool := fun _ ↦ false

/-- What a record declares. -/
structure Declaration (ρ : Type) where
  /-- How messages call the kind of record. -/
  kind : String
  /-- The fields in their order. -/
  fields : List (RecordField ρ)
  /-- A record to be filled. -/
  blank : ρ

/-- The names of the fields. -/
def Declaration.names {ρ : Type} (D : Declaration ρ) : List String := D.fields.map fun f ↦ f.name

/-- The fields of a method.  Its defaults are left out if it has none. -/
def MethodRecord.declaration : Declaration MethodRecord where
  kind := "MethodDescriptor"
  fields :=
    [ { name := "Name", type := .text, default? := none
        get := fun r ↦ r.name, set := fun v r ↦ { r with name := v } },
      { name := "Namespace", type := .text, default? := none
        get := fun r ↦ r.owner, set := fun v r ↦ { r with owner := v } },
      { name := "AccessModifier", type := .access, default? := some .unstated
        get := fun r ↦ r.access, set := fun v r ↦ { r with access := v } },
      { name := "IsStatic", type := .flag, default? := some false
        get := fun r ↦ r.isStatic, set := fun v r ↦ { r with isStatic := v } },
      { name := "ReturnType", type := .text, default? := some defaultReturns
        get := fun r ↦ r.returns, set := fun v r ↦ { r with returns := v } },
      { name := "ParameterTypes", type := .list .text, default? := some []
        get := fun r ↦ r.paramTypes, set := fun v r ↦ { r with paramTypes := v } },
      { name := "ParameterNames", type := .list .text, default? := some []
        get := fun r ↦ r.paramNames, set := fun v r ↦ { r with paramNames := v } },
      { name := "ParameterDefaultValues", type := .list (.optional .text), default? := some []
        get := fun r ↦ r.paramDefaults, set := fun v r ↦ { r with paramDefaults := v }
        isOmitted := List.isEmpty },
      { name := "Code", type := .text, default? := some ""
        get := fun r ↦ r.code, set := fun v r ↦ { r with code := v } } ]
  blank := { name := "", owner := "" }

/-- The fields of a class. -/
def ClassRecord.declaration : Declaration ClassRecord where
  kind := "ClassDescriptor"
  fields :=
    [ { name := "Name", type := .text, default? := none
        get := fun r ↦ r.name, set := fun v r ↦ { r with name := v } },
      { name := "Namespace", type := .text, default? := none
        get := fun r ↦ r.owner, set := fun v r ↦ { r with owner := v } },
      { name := "AccessModifier", type := .access, default? := some .unstated
        get := fun r ↦ r.access, set := fun v r ↦ { r with access := v } },
      { name := "IsStatic", type := .flag, default? := some false
        get := fun r ↦ r.isStatic, set := fun v r ↦ { r with isStatic := v } },
      { name := "Implements", type := .list .text, default? := some []
        get := fun r ↦ r.imports, set := fun v r ↦ { r with imports := v } } ]
  blank := { name := "", owner := "" }

/-- The fields of a namespace. -/
def NamespaceRecord.declaration : Declaration NamespaceRecord where
  kind := "NamespaceDescriptor"
  fields :=
    [ { name := "Namespace", type := .text, default? := none
        get := fun r ↦ r.name, set := fun v r ↦ { r with name := v } },
      { name := "Implements", type := .list .text, default? := some []
        get := fun r ↦ r.imports, set := fun v r ↦ { r with imports := v } } ]
  blank := { name := "" }

end Dossier
