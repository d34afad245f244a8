import Dossier.Script.Binding.Expr

/-!
# Binding statements

A declaration takes the next slot of the frame and puts its name into the innermost scope, from the
statement after it on; a block has a scope of its own.  The slots of a block are not used again
after it, so that the slot of a declaration is the number of parameters and declarations before it
in the text.
-/

set_option autoImplicit false

namespace Dossier.Script

/-- What has been declared before a statement. -/
structure Declared where
  /-- The names in scope. -/
  scopes : Scopes
  /-- The number of slots that are taken. -/
  frameSize : Nat
  deriving Repr, Inhabited

namespace Declared

/-- A new scope within the others. -/
def enter (d : Declared) : Declared := { d with scopes := [] :: d.scopes }

/-- The scopes of `outer`, after the slots that were taken within. -/
def leaveTo (inner outer : Declared) : Declared := { outer with frameSize := inner.frameSize }

/-- A new name for the next slot. -/
def declare (d : Declared) (name : String) (type : Option ValueType) : Declared :=
  ⟨d.scopes.declare name ⟨d.frameSize, type⟩, d.frameSize + 1⟩

/-- The parameters of a method, in a scope of their own. -/
def ofParams (params : List BoundParam) : Declared :=
  params.foldl (fun d p ↦ d.declare p.name (some p.type)) ⟨[[]], 0⟩

end Declared

namespace Surroundings

/-! ## Simple statements -/

/-- The type of a declaration. -/
def bindTypeName (type : TypeName) : Found ValueType :=
  let text := dotted type.segments
  match ValueType.ofText? text with
  | some .void => do
    found .voidLocalType type.span
    pure .object
  | some t => pure t
  | none => do
    found (.unknownType text) type.span
    pure .object

/-- An optional type. -/
def bindTypeName? : Option TypeName → Found (Option ValueType)
  | none => pure none
  | some type => do
    let type ← bindTypeName type
    pure (some type)

/-- An optional expression. -/
def bindExpr? (s : Surroundings) (scopes : Scopes) : Option Expr → Found (Option BoundExpr)
  | none => pure none
  | some e => do
    let e ← s.bindExpr scopes e
    pure (some e)

/-- A declaration: its value is bound before its name is in scope. -/
def bindDeclare (s : Surroundings) (d : Declared) (name : Name) (type : Option TypeName)
    (init : Option Expr) : Found (BoundStmt × Declared) := do
  let type ← bindTypeName? type
  let init ← s.bindExpr? d.scopes init
  foundIf (d.scopes.find? name.text).isSome (.duplicateLocal name.text) name.span
  pure (.declare d.frameSize type init, d.declare name.text type)

/-- An assignment; its value is bound before its target. -/
def bindAssign (s : Surroundings) (scopes : Scopes) (op : AssignOp) (target value : Expr) :
    Found BoundStmt := do
  let value ← s.bindExpr scopes value
  match target with
  | .name n =>
    match scopes.find? n.text with
    | some l => pure (.assign l.slot l.type op.binary? value)
    | none => do
      found (.unknownName n.text) n.span
      pure (.expr value)
  | _ => do
    found .notAssignable target.span
    pure (.expr value)

/-- A result; one that cannot be is not looked into. -/
def bindGiveBack (s : Surroundings) (scopes : Scopes) (value : Option Expr) (span : Text.Span) :
    Found BoundStmt :=
  match value, s.method.returns == .void with
  | some value, true => do
    found (.unexpectedResult s.method.qualifiedName) value.span
    pure (.giveBack none)
  | none, false => do
    found (.expectedResult s.method.returns) span
    pure (.giveBack none)
  | value, _ => do
    let value ← s.bindExpr? scopes value
    pure (.giveBack value)

/-! ## All statements -/

mutual

/-- Binds a statement, after what was declared before it. -/
def bindStmt (s : Surroundings) (d : Declared) : Stmt → Found (BoundStmt × Declared)
  | .declare name type init _ => s.bindDeclare d name type init
  | .assign op target value _ => do
    let b ← s.bindAssign d.scopes op target value
    pure (b, d)
  | .giveBack value span => do
    let b ← s.bindGiveBack d.scopes value span
    pure (b, d)
  | .branch condition body _ otherwise _ => do
    let condition ← s.bindExpr d.scopes condition
    let (body, inner) ← s.bindStmts d.enter body
    let (otherwise, d) ← s.bindOtherwise (inner.leaveTo d) otherwise
    pure (.branch condition body otherwise, d)
  | .loop condition body _ _ => do
    let condition ← s.bindExpr d.scopes condition
    let (body, inner) ← s.bindStmts d.enter body
    pure (.loop condition body, inner.leaveTo d)
  | .throw value _ => do
    let value ← s.bindExpr d.scopes value
    pure (.throw value, d)
  | .block body _ => do
    let (body, inner) ← s.bindStmts d.enter body
    pure (.block body, inner.leaveTo d)
  | .expr e span => do
    foundIf (!e.isCall) .notStatement span
    let e ← s.bindExpr d.scopes e
    pure (.expr e, d)

/-- Binds what follows the block of a branch. -/
def bindOtherwise (s : Surroundings) (d : Declared) :
    Otherwise → Found (List BoundStmt × Declared)
  | .nothing => pure ([], d)
  | .block body _ => do
    let (body, inner) ← s.bindStmts d.enter body
    pure (body, inner.leaveTo d)
  | .branch condition body _ otherwise _ => do
    let condition ← s.bindExpr d.scopes condition
    let (body, inner) ← s.bindStmts d.enter body
    let (otherwise, d) ← s.bindOtherwise (inner.leaveTo d) otherwise
    pure ([.branch condition body otherwise], d)

/-- Binds statements that follow each other in one scope. -/
def bindStmts (s : Surroundings) (d : Declared) : List Stmt → Found (List BoundStmt × Declared)
  | [] => pure ([], d)
  | first :: rest => do
    let (first, d) ← s.bindStmt d first
    let (rest, d) ← s.bindStmts d rest
    pure (first :: rest, d)

end

end Surroundings

end Dossier.Script
