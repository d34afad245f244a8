import Dossier.Script.Binding.Stmt

/-!
# Binding a compile unit

`bind` turns a compile unit into a program that can be run, or into the diagnostics that say why
not.  They come in the order: references that name no module, then all signatures, then the bodies
one after the other, a body that cannot be parsed with its syntax errors alone.

What is found in a body depends on the signatures, the imports of its namespace and the body itself;
nothing is handed on from one body to the next.
-/

set_option autoImplicit false

namespace Dossier.Script

/-- A body that has been bound. -/
structure BoundBody where
  /-- The number of slots. -/
  frameSize : Nat
  /-- The statements. -/
  body : List BoundStmt

/-- Binds the body of a method. -/
def Surroundings.bindBody (s : Surroundings) (statements : List Stmt) : Found BoundBody := do
  let (body, d) ← s.bindStmts (Declared.ofParams s.method.params) statements
  pure ⟨d.frameSize, body⟩

/-- Binds a method whose signature is known: a body with syntax errors has no statements, and one
that can end without the result that it owes has a problem of the whole method. -/
def bindMethod (s : Surroundings) (className : String) (m : Method) :
    Noted Diagnostic BoundMethod :=
  let place (span : Text.Span) : Option Location :=
    some (Location.inBody s.namespaceName className m.name m.body span)
  let parsed := parse m.body
  if parsed.errors.isEmpty then
    let bound := s.bindBody parsed.statements
    let incomplete := s.method.returns != .void && !anyAlwaysExits bound.value.body
    let missing := if incomplete then
        [(Problem.missingReturn s.method.qualifiedName).toDiagnostic none]
      else []
    ⟨{ s.method with frameSize := bound.value.frameSize, body := bound.value.body },
      (bound.notes.map fun p ↦ p.problem.toDiagnostic (place p.span)) ++ missing⟩
  else
    ⟨{ s.method with frameSize := 0, body := [] },
      parsed.errors.map fun e ↦ (Problem.syntaxError e.message).toDiagnostic (place e.span)⟩

/-- Binds the methods of a class whose signatures are known. -/
def bindMethods (surroundings : Signature → Surroundings) (className : String) :
    List Signature → List Method → Noted Diagnostic (List BoundMethod)
  | signature :: signatures, m :: ms => do
    let first ← bindMethod (surroundings signature) className m
    let rest ← bindMethods surroundings className signatures ms
    pure (first :: rest)
  | _, _ => pure []

/-- Binds the classes from the position `index` on. -/
def bindClasses (all : List ClassSignature) : (index : Nat) → List ClassSignature →
    List (Namespace × Class) → Noted Diagnostic (List BoundClass)
  | index, c :: rest, (ns, decl) :: decls => do
    let methods ←
      bindMethods (fun m ↦ ⟨all, ns.imports, index, c.namespaceName, m⟩) decl.name c.methods
        decl.methods
    let more ← bindClasses all (index + 1) rest decls
    pure (⟨c.namespaceName, c.name, c.fullName, c.isStatic, methods⟩ :: more)
  | _, _, _ => pure []

/-- The problems of references that name no module. -/
def referenceProblems (references : List String) : List Problem :=
  (references.filter fun r ↦ !Library.isModule r).map Problem.unknownReference

/-- Binds all of a compile unit, and notes what is wrong with it. -/
def bindAll (u : CompileUnit) (references : List String) : Noted Diagnostic BoundProgram :=
  let signatures := bindAllSignatures u
  let general := referenceProblems references ++ signatures.notes
  let classes := bindClasses signatures.value 0 signatures.value u.classes
  ⟨⟨classes.value⟩, (general.map fun p ↦ p.toDiagnostic none) ++ classes.notes⟩

/-- The program of a compile unit, or why there is none. -/
def bind (u : CompileUnit) (references : List String) :
    Except (List Diagnostic) BoundProgram :=
  let bound := bindAll u references
  if bound.notes.isEmpty then .ok bound.value else .error bound.notes

end Dossier.Script
