import Dossier.Noted
import Dossier.Placement

/-!
# Compile units from records

Records in their places become a compile unit.  Names, modifiers and bodies are taken as they are,
and the order stays.  A namespace imports what its own record names, then what the records of its
classes name, each module once.

Only signatures are looked at.  The lists of a record that describe the parameters must fit together,
and a parameter without a default must not follow one that has a default.  All methods are judged, and
each that is malformed gives one conflict.
-/

set_option autoImplicit false

namespace Dossier

/-- What is wrong with a signature. -/
inductive SignatureProblem where
  /-- The lists are not of one length. -/
  | length (types names defaults : Nat)
  /-- A parameter without a default follows one that has a default. -/
  | required (param defaulted : String)
  deriving DecidableEq, Repr

/-- The wording of a problem. -/
def SignatureProblem.message : SignatureProblem → String
  | length types names defaults =>
    "parameter lists differ in length (" ++ toString types ++ " types, " ++ toString names ++
      " names, " ++ toString defaults ++ " defaults)"
  | required param defaulted =>
    "parameter '" ++ param ++ "' has no default but follows defaulted parameter '" ++ defaulted ++ "'"

/-- A method whose signature is malformed. -/
structure SignatureConflict where
  /-- The method with its class and namespace in front. -/
  method : String
  /-- What is wrong. -/
  problem : SignatureProblem
  deriving DecidableEq, Repr

namespace SignatureConflict

/-- The wording of a conflict. -/
def message (c : SignatureConflict) : String := c.method ++ ": " ++ c.problem.message

/-- The wording of all conflicts. -/
def messageOf (conflicts : List SignatureConflict) : String :=
  "Signature conflict: " ++ "; ".intercalate (conflicts.map message)

end SignatureConflict

/-! ## Signatures -/

namespace MethodRecord

/-- A default, or that there is none, for every parameter. -/
def defaults (r : MethodRecord) : List (Option String) :=
  if r.paramDefaults.isEmpty then r.paramNames.map fun _ ↦ none else r.paramDefaults

/-- Do the lists that describe the parameters fit together? -/
def fits (r : MethodRecord) : Bool :=
  r.paramTypes.length = r.paramNames.length && r.defaults.length = r.paramNames.length

/-- The parameters, as long as all lists have something to say about them. -/
def zipped (r : MethodRecord) : List Parameter :=
  ((r.paramTypes.zip r.paramNames).zip r.defaults).map fun x ↦ ⟨x.1.1, x.1.2, x.2⟩

end MethodRecord

/-- The first parameter without a default behind one that has a default, and the last of those in
front of it; `last` is the last one before the list. -/
def requiredAfterDefault (last : Option String) : List Parameter → Option SignatureProblem
  | [] => none
  | p :: ps =>
    match p.default?, last with
    | some _, _ => requiredAfterDefault (some p.name) ps
    | none, none => requiredAfterDefault none ps
    | none, some defaulted => some (.required p.name defaulted)

/-- The parameters of a method. -/
def MethodRecord.params (r : MethodRecord) : Except SignatureProblem (List Parameter) :=
  if r.fits then
    match requiredAfterDefault none r.zipped with
    | none => .ok r.zipped
    | some problem => .error problem
  else .error (.length r.paramTypes.length r.paramNames.length r.paramDefaults.length)

/-! ## Units -/

/-- The method that a record describes. -/
def Method.ofRecord (r : MethodRecord) : Noted SignatureConflict (Option Method) :=
  match r.params with
  | .ok params => pure (some ⟨r.name, r.access, r.isStatic, r.returns, params, r.code⟩)
  | .error problem => ⟨none, [⟨r.qualifiedName, problem⟩]⟩

/-- A class of placed records. -/
def Class.ofPlaced (c : PlacedClass) : Noted SignatureConflict Class := do
  let methods ← Noted.forEach Method.ofRecord c.methods
  pure ⟨c.record.name, c.record.access, c.record.isStatic, methods.filterMap id⟩

/-- The modules that a namespace imports, itself or for its classes. -/
def PlacedNamespace.imports (ns : PlacedNamespace) : List String :=
  firstSeen (ns.record.imports ++ ns.classes.flatMap fun c ↦ c.record.imports)

/-- A namespace of placed records. -/
def Namespace.ofPlaced (ns : PlacedNamespace) : Noted SignatureConflict Namespace := do
  let classes ← Noted.forEach Class.ofPlaced ns.classes
  pure ⟨ns.record.name, ns.imports, classes⟩

/-- The compile unit of placed records, if no signature is malformed. -/
def CompileUnit.ofPlacement (p : Placement) : Except (List SignatureConflict) CompileUnit :=
  let namespaces := Noted.forEach Namespace.ofPlaced p.namespaces
  match namespaces.notes with
  | [] => .ok ⟨namespaces.value⟩
  | conflicts => .error conflicts

end Dossier
