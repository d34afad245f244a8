import Dossier.Script.Binding.Signature

/-!
# Binding expressions

Names in a body mean, from the innermost scope outwards, locals and parameters; in front of a call
they mean methods and classes.

A call is bound in this order: the name alone is a method of the same class; after `this` it is one
as well, called on the instance; after a path it is a method of a class of the program, or of the
library.  A path of one name is tried within the namespace of the caller, and then as a full name; a
local of that name hides every class.

What cannot be bound is noted, and `null` stands in for it, so that one body can have several
problems.
-/

set_option autoImplicit false

namespace Dossier.Script

open Text (Span)

/-! ## What is in reach -/

/-- A name for a slot. -/
structure Local where
  /-- Its slot. -/
  slot : Nat
  /-- The type it was declared with, if any. -/
  type : Option ValueType
  deriving DecidableEq, Repr, Inhabited

/-- The names that were declared in one block, the latest first. -/
abbrev Scope := List (String × Local)

/-- The scopes around a statement, the innermost first. -/
abbrev Scopes := List Scope

namespace Scopes

/-- The local that a name means. -/
def find? (scopes : Scopes) (name : String) : Option Local :=
  scopes.findSome? fun scope ↦ scope.lookup name

/-- Declares a name in the innermost scope. -/
def declare (scopes : Scopes) (name : String) (l : Local) : Scopes :=
  match scopes with
  | [] => []
  | scope :: outer => ((name, l) :: scope) :: outer

end Scopes

/-- What the body of a method can refer to, apart from its locals. -/
structure Surroundings where
  /-- All classes of the program. -/
  classes : List ClassSignature
  /-- The modules that the namespace of the method imports. -/
  imports : List String
  /-- The position of the method's class. -/
  classIndex : Nat
  /-- The namespace of that class. -/
  namespaceName : String
  /-- The signature of the method. -/
  method : Signature

/-- How a call names its method. -/
inductive CallForm where
  /-- By its name alone. -/
  | bare
  /-- After `this`. -/
  | onSelf
  /-- After the name of a class. -/
  | onClass
  deriving DecidableEq, Repr

/-- Bound code with the problems that were found in it. -/
abbrev Found := Noted Placed

/-- Notes a problem. -/
def found (problem : Problem) (span : Span) : Found PUnit := Noted.note ⟨problem, span⟩

/-- Notes a problem if a condition holds. -/
def foundIf (condition : Bool) (problem : Problem) (span : Span) : Found PUnit :=
  Noted.noteIf condition ⟨problem, span⟩

/-- Notes a problem, and takes null for what has it. -/
def instead (problem : Problem) (span : Span) : Found BoundExpr := do
  found problem span
  pure (.const .null)

namespace Surroundings

/-! ## Calls -/

/-- The instance must be there. -/
def checkSelf (s : Surroundings) (span : Span) : Found PUnit :=
  foundIf s.method.isStatic .selfInStatic span

/-- Is there an instance for a call of this form?  A call on `this` in a method without instance
has been noted as such. -/
def hasReceiver (s : Surroundings) : CallForm → Bool
  | .onSelf => true
  | .bare => !s.method.isStatic
  | .onClass => false

/-- A call of a method of the class at a position. -/
def callMethod (s : Surroundings) (classIndex : Nat) (name : Name) (args : List BoundExpr)
    (span : Span) (form : CallForm) : Found BoundExpr :=
  match s.classes[classIndex]? with
  | none => instead (.unknownName name.text) name.span
  | some target =>
    match target.findMethod? name.text with
    | none =>
      instead
        (if form = .bare then .unknownName name.text else .noMember target.fullName name.text)
        name.span
    | some methodIndex => do
      let some m := target.methods[methodIndex]? | instead (.unknownName name.text) name.span
      foundIf (classIndex != s.classIndex && !m.isShared) (.inaccessible m.qualifiedName) name.span
      foundIf (m.isStatic && form == .onSelf) (.staticOnInstance m.qualifiedName) name.span
      foundIf (!m.isStatic && !s.hasReceiver form) (.noInstance m.qualifiedName) name.span
      foundIf (decide (args.length < m.required) || decide (m.params.length < args.length))
        (.argumentCount m.name args.length) span
      pure (.call classIndex methodIndex args)

/-- The position of the class that a path means. -/
def classAt? (s : Surroundings) (path : List Name) : Option Nat :=
  let full := dotted path
  if path.length = 1 then
    (findClassSignature? s.classes (qualify s.namespaceName full)).or
      (findClassSignature? s.classes full)
  else findClassSignature? s.classes full

/-- The modules in which a path leads to a class of the library, and the name of that class. -/
def libraryClass? (s : Surroundings) (path : List Name) : Option (List String × String) :=
  match path.getLast? with
  | none => none
  | some last =>
    if path.length = 1 then
      if Library.hasClass s.imports last.text then some (s.imports, last.text) else none
    else
      let moduleName := dotted path.dropLast
      if Library.isModule moduleName && Library.hasClass [moduleName] last.text then
        some ([moduleName], last.text)
      else none

/-- A call of a method of a library class. -/
def callLibrary (modules : List String) (className : String) (name : Name) (args : List BoundExpr)
    (span : Span) : Found BoundExpr :=
  match Library.find? modules className name.text with
  | none => instead (.noMember className name.text) name.span
  | some m =>
    if m.accepts args.length then pure (.library m args)
    else instead (.argumentCount m.name args.length) span

/-- A call of a method after a path of names. -/
def callPath (s : Surroundings) (scopes : Scopes) (path : List Name) (name : Name)
    (args : List BoundExpr) (span : Span) : Found BoundExpr :=
  match path with
  | [] => instead .notCallable span
  | first :: rest =>
    if rest.isEmpty && (scopes.find? first.text).isSome then
      instead (.noMember first.text name.text) name.span
    else
      match s.classAt? path with
      | some classIndex => s.callMethod classIndex name args span .onClass
      | none =>
        match s.libraryClass? path with
        | some (modules, className) => callLibrary modules className name args span
        | none =>
          if rest.isEmpty then instead (.unknownName first.text) first.span
          else
            instead (.unknownType (dotted path))
              (rest.foldl (fun span n ↦ span.cover n.span) first.span)

/-- A call of what an expression stands for. -/
def callExpr (s : Surroundings) (scopes : Scopes) (callee : Expr) (args : List BoundExpr)
    (span : Span) : Found BoundExpr :=
  match callee with
  | .name n => s.callMethod s.classIndex n args span .bare
  | .member (.self selfSpan) n _ => do
    s.checkSelf selfSpan
    s.callMethod s.classIndex n args span .onSelf
  | .member base n _ =>
    match base.path? with
    | some path => s.callPath scopes path n args span
    | none => instead .notCallable callee.span
  | _ => instead .notCallable callee.span

/-! ## Expressions -/

/-- The problem of a member that is not called: no value has any. -/
def memberProblem (base : Expr) (member : Name) : Problem :=
  match base with
  | .self _ => .noMember "this" member.text
  | _ =>
    match base.path? with
    | some path => .noMember (dotted path) member.text
    | none => .noMemberOfValue member.text

mutual

/-- Binds an expression. -/
def bindExpr (s : Surroundings) (scopes : Scopes) : Expr → Found BoundExpr
  | .literal l _ => pure (.const l.value)
  | .name n =>
    match scopes.find? n.text with
    | some l => pure (.slot l.slot)
    | none => instead (.unknownName n.text) n.span
  | .self span => do
    s.checkSelf span
    pure .self
  | .unary op operand _ => do
    let operand ← s.bindExpr scopes operand
    pure (.unary op operand)
  | .binary op left right _ => do
    let left ← s.bindExpr scopes left
    let right ← s.bindExpr scopes right
    pure (.binary op left right)
  | .member base member _ => instead (memberProblem base member) member.span
  | .call callee args span => do
    let args ← s.bindArgs scopes args
    s.callExpr scopes callee args span

/-- Binds the arguments of a call. -/
def bindArgs (s : Surroundings) (scopes : Scopes) : List Expr → Found (List BoundExpr)
  | [] => pure []
  | arg :: args => do
    let arg ← s.bindExpr scopes arg
    let args ← s.bindArgs scopes args
    pure (arg :: args)

end

end Surroundings

end Dossier.Script
