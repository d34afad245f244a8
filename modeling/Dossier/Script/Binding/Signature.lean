import Dossier.Noted
import Dossier.Script.Parse.Body
import Dossier.Script.Problem

/-!
# Binding signatures

The first of the two passes over a compile unit finds out what the methods can know of each other:
names, modifiers, the types of parameters and results, and defaults.  A type that is unknown is
taken for `object`, so that the rest of the signature can still be checked.

A default is a literal, or a number with minus signs in front of it.
-/

set_option autoImplicit false

namespace Dossier.Script

/-! ## Defaults -/

/-- The value of a literal. -/
def Literal.value : Literal → Value
  | int n => .int n
  | float x => .float x
  | string s => .string s
  | bool b => .bool b
  | null => .null

/-- The number with the other sign, if the value is one. -/
def Value.negated? : Value → Option Value
  | int n => some (int (-n))
  | float x => some (float (-x))
  | _ => none

/-- The value of an expression that is a literal with minus signs in front of it. -/
def Expr.constant? : Expr → Option Value
  | .literal l _ => some l.value
  | .unary .neg operand _ => operand.constant?.bind Value.negated?
  | _ => none

/-- The value that the text of a default stands for. -/
def defaultValue? (text : String) : Option Value :=
  match parseExpr (tokenize text) with
  | .ok e => e.constant?
  | .error _ => none

/-- The default of a parameter of a type. -/
def bindDefault (parameter method : String) (type : ValueType) (text : String) :
    Noted Problem (Option Value) := do
  match defaultValue? text with
  | none =>
    Noted.note (.defaultNotConstant parameter method)
    pure none
  | some value =>
    match type.coerce value with
    | .ok value => pure (some value)
    | .error _ =>
      Noted.note (.defaultMismatch value.typeName parameter method type)
      pure none

/-! ## Signatures -/

/-- The type that a signature names. -/
def bindSignatureType (method type : String) : Noted Problem ValueType :=
  match ValueType.ofText? type with
  | some t => pure t
  | none => do
    Noted.note (.unknownSignatureType type method)
    pure .object

/-- A parameter of a method. -/
def bindParam (method : String) (p : Parameter) : Noted Problem BoundParam := do
  let type ← bindSignatureType method p.type
  Noted.noteIf (type == .void) (.voidParameter p.name method)
  let default? ← match p.default? with
    | some text => bindDefault p.name method type text
    | none => pure none
  pure ⟨p.name, type, default?⟩

/-- The parameters of a method after those with the names in `before`. -/
def bindParams (method : String) : (before : List String) → List Parameter →
    Noted Problem (List BoundParam)
  | _, [] => pure []
  | before, p :: ps => do
    Noted.noteIf (before.contains p.name) (.duplicateParameter p.name method)
    let bound ← bindParam method p
    let more ← bindParams method (p.name :: before) ps
    pure (bound :: more)

/-- The signature of a method of a class. -/
def bindSignature (className : String) (m : Method) : Noted Problem Signature := do
  let qualifiedName := qualify className m.name
  let returns ← bindSignatureType qualifiedName m.returns
  let params ← bindParams qualifiedName [] m.params
  pure ⟨m.name, qualifiedName, m.visibility, m.isStatic, returns, params⟩

/-- The signatures of the methods of a class after those with the names in `before`. -/
def bindSignatures (className : String) (classIsStatic : Bool) : (before : List String) →
    List Method → Noted Problem (List Signature)
  | _, [] => pure []
  | before, m :: ms => do
    Noted.noteIf (before.contains m.name) (.duplicateMethod className m.name)
    Noted.noteIf (classIsStatic && !m.isStatic) (.instanceMember (qualify className m.name))
    let signature ← bindSignature className m
    let more ← bindSignatures className classIsStatic (m.name :: before) ms
    pure (signature :: more)

/-- The signatures of the classes after those with the full names in `before`. -/
def bindClassSignatures : (before : List String) → List (Namespace × Class) →
    Noted Problem (List ClassSignature)
  | _, [] => pure []
  | before, (ns, c) :: rest => do
    let fullName := qualify ns.name c.name
    Noted.noteIf (before.contains fullName) (.duplicateClass ns.name c.name)
    let methods ← bindSignatures fullName c.isStatic [] c.methods
    let more ← bindClassSignatures (fullName :: before) rest
    pure (⟨ns.name, c.name, fullName, c.isStatic, methods⟩ :: more)

/-- What the methods of a compile unit can know of each other. -/
def bindAllSignatures (u : CompileUnit) : Noted Problem (List ClassSignature) :=
  bindClassSignatures [] u.classes

end Dossier.Script
