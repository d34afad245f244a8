import Dossier.Proofs.Binding.Accepted
import Dossier.Proofs.Binding.Target
import Dossier.Script.Run

/-!
# Running syntax trees

A run of a compile unit that knows nothing of slots: it works on the syntax trees of the bodies,
with a stack of scopes in which locals are found by their names.

* The parameters are in the outermost scope.  A block has a scope of its own, which is there while
  the block runs.
* A declaration puts its name into the innermost scope when it runs.
* A name means the latest local of that name in the innermost scope that has one.
* A call calls what `Surroundings.target?` says; a local hides every class of its name.

What has no meaning for a unit that is accepted, such as a name that no scope has, is
`Halt.stuck`.  Fuel bounds how deep the recursion goes, as it does for bound code.
-/

set_option autoImplicit false

namespace Dossier.Script

/-! ## Environments -/

/-- A local with its value. -/
structure Variable where
  /-- The type it was declared with, if any. -/
  type : Option ValueType
  /-- Its value. -/
  value : Value

/-- The locals of some scopes, the innermost scope first, and in each of them the latest local. -/
abbrev Env := List (List (String × Variable))

/-- The first local of a name with another value. -/
def assignFirst (name : String) (v : Value) : List (String × Variable) → List (String × Variable)
  | [] => []
  | (other, x) :: rest =>
    if name == other then (other, { x with value := v }) :: rest
    else (other, x) :: assignFirst name v rest

namespace Env

/-- The local that a name means. -/
def find? (env : Env) (name : String) : Option Variable :=
  env.findSome? fun scope ↦ scope.lookup name

/-- Is there a local of the name? -/
def has (env : Env) (name : String) : Bool := (env.find? name).isSome

/-- A new local in the innermost scope. -/
def declare (env : Env) (name : String) (x : Variable) : Env :=
  match env with
  | [] => []
  | scope :: outer => ((name, x) :: scope) :: outer

/-- Another value for the local that a name means. -/
def assign (env : Env) (name : String) (v : Value) : Env :=
  match env with
  | [] => []
  | scope :: outer =>
    if (scope.lookup name).isSome then assignFirst name v scope :: outer
    else scope :: assign outer name v

/-- The parameters of a method with their values, in a scope of their own. -/
def ofParams (params : List BoundParam) (vs : List Value) : Env :=
  (params.zip vs).foldl (fun env (q, v) ↦ env.declare q.name ⟨some q.type, v⟩) [[]]

end Env

/-- How a statement ends. -/
inductive Ending where
  /-- The next statement follows, in this environment. -/
  | next (env : Env)
  /-- The method ends with this value. -/
  | result (v : Value)

/-- The type of a declaration, if it is known; a declaration that names no type has none. -/
def declaredType? : Option TypeName → Option (Option ValueType)
  | none => some none
  | some type => (ValueType.ofText? (dotted type.segments)).map some

namespace Named

/-- What stays the same while a method runs. -/
structure Activity where
  /-- The method, with what its body can refer to. -/
  site : Site
  /-- The instance it runs on. -/
  self : Value

/-- The activation that operations on values are given.  They look at the name of its method alone,
so that it has neither a body nor a program. -/
def Activity.voice (t : Activity) : Activation :=
  ⟨⟨[]⟩, { t.site.surroundings.method with frameSize := 0, body := [] }, t.self⟩

/-- Runs something in a scope of its own. -/
def inScope (run : Env → Run Ending) (env : Env) : Run Ending := do
  let ending ← run ([] :: env)
  pure <|
    match ending with
    | .next env => .next env.tail
    | .result v => .result v

mutual

/-- The value of an expression. -/
def evaluate : (fuel : Nat) → CompileUnit → Activity → Env → Expr → Run Value
  | 0, _, _, _, _ => throw .outOfFuel
  | fuel + 1, u, t, env, e =>
    match e with
    | .literal l _ => pure l.value
    | .name n =>
      match env.find? n.text with
      | some x => pure x.value
      | none => throw .stuck
    | .self _ => pure t.self
    | .unary op operand _ => do
      let v ← evaluate fuel u t env operand
      t.voice.lift (op.apply v)
    | .binary .and left right _ => do
      let b ← evaluateTruth fuel u t env left
      if b then
        let b ← evaluateTruth fuel u t env right
        pure (.bool b)
      else pure (.bool false)
    | .binary .or left right _ => do
      let b ← evaluateTruth fuel u t env left
      if b then pure (.bool true)
      else
        let b ← evaluateTruth fuel u t env right
        pure (.bool b)
    | .binary op left right _ => do
      let v ← evaluate fuel u t env left
      let w ← evaluate fuel u t env right
      t.voice.lift (op.apply v w)
    | .member _ _ _ => throw .stuck
    | .call callee args _ => do
      let vs ← evaluateArgs fuel u t env args
      match t.site.surroundings.target? env.has callee with
      | some (.method ci mi) => callMethod fuel u ci mi t.self vs
      | some (.library m) => t.voice.callLibrary m vs
      | none => throw .stuck

/-- The truth of an expression. -/
def evaluateTruth : (fuel : Nat) → CompileUnit → Activity → Env → Expr → Run Bool
  | 0, _, _, _, _ => throw .outOfFuel
  | fuel + 1, u, t, env, e => do
    let v ← evaluate fuel u t env e
    t.voice.truth v

/-- The values of arguments; the result of a void method is none. -/
def evaluateArgs : (fuel : Nat) → CompileUnit → Activity → Env → List Expr → Run (List Value)
  | 0, _, _, _, _ => throw .outOfFuel
  | _ + 1, _, _, _, [] => pure []
  | fuel + 1, u, t, env, e :: es => do
    let v ← evaluate fuel u t env e
    if v.isVoid then t.voice.fail .voidArgument
    else
      let vs ← evaluateArgs fuel u t env es
      pure (v :: vs)

/-- Calls the method at a position, on an instance if it needs one. -/
def callMethod : (fuel : Nat) → CompileUnit → Nat → Nat → Value → List Value → Run Value
  | 0, _, _, _, _, _ => throw .outOfFuel
  | fuel + 1, u, classIndex, methodIndex, self, args => fun w ↦
    match site? u classIndex methodIndex with
    | none => .error .stuck w
    | some site =>
      let t : Activity := ⟨site, if site.surroundings.method.isStatic then .null else self⟩
      if maxCallDepth ≤ w.depth then t.voice.fail .stackOverflow w
      else
        match runMethod fuel u t args { w with depth := w.depth + 1 } with
        | .ok v w => .ok v { w with depth := w.depth - 1 }
        | .error halt w => .error halt { w with depth := w.depth - 1 }

/-- Runs a method in a new environment. -/
def runMethod : (fuel : Nat) → CompileUnit → Activity → List Value → Run Value
  | 0, _, _, _ => throw .outOfFuel
  | fuel + 1, u, t, args => do
    let signature := t.site.surroundings.method
    let vs ← t.voice.parameterSlots signature.params args
    let ending ← executeAll fuel u t (Env.ofParams signature.params vs) t.site.statements
    let v := match ending with
      | .result v => v
      | .next _ => .void
    if signature.returns = .void then pure .void else t.voice.coerce signature.returns v

/-- Executes a statement. -/
def execute : (fuel : Nat) → CompileUnit → Activity → Env → Stmt → Run Ending
  | 0, _, _, _, _ => throw .outOfFuel
  | fuel + 1, u, t, env, s =>
    match s with
    | .declare name type init _ =>
      match declaredType? type with
      | none => throw .stuck
      | some type => do
        let v ← match init, type with
          | some e, _ => evaluate fuel u t env e
          | none, some t => pure t.defaultValue
          | none, none => pure .null
        let v ← t.voice.initial type v
        pure (.next (env.declare name.text ⟨type, v⟩))
    | .assign op (.name n) value _ => do
      let v ← evaluate fuel u t env value
      match env.find? n.text with
      | none => throw .stuck
      | some x => do
        let v ← match op.binary? with
          | some op => t.voice.lift (op.apply x.value v)
          | none => pure v
        let v ← t.voice.assigned x.type v
        pure (.next (env.assign n.text v))
    | .assign _ _ _ _ => throw .stuck
    | .giveBack none _ => pure (.result .void)
    | .giveBack (some e) _ => do
      let v ← evaluate fuel u t env e
      pure (.result v)
    | .branch condition body _ otherwise _ => do
      let b ← evaluateTruth fuel u t env condition
      if b then inScope (fun env ↦ executeAll fuel u t env body) env
      else
        match otherwise with
        | .nothing => executeAll fuel u t env []
        | .block body _ => inScope (fun env ↦ executeAll fuel u t env body) env
        | .branch condition body bodySpan otherwise span =>
          executeAll fuel u t env [.branch condition body bodySpan otherwise span]
    | .loop condition body _ _ => executeLoop fuel u t env condition body
    | .throw e _ => do
      let v ← evaluate fuel u t env e
      t.voice.fail (Activation.thrown v)
    | .block body _ => inScope (fun env ↦ executeAll fuel u t env body) env
    | .expr e _ => do
      let _ ← evaluate fuel u t env e
      pure (.next env)

/-- Executes statements one after the other, until one ends the method. -/
def executeAll : (fuel : Nat) → CompileUnit → Activity → Env → List Stmt → Run Ending
  | 0, _, _, _, _ => throw .outOfFuel
  | _ + 1, _, _, env, [] => pure (.next env)
  | fuel + 1, u, t, env, s :: rest => do
    let ending ← execute fuel u t env s
    match ending with
    | .next env => executeAll fuel u t env rest
    | .result v => pure (.result v)

/-- Executes the body of a loop as long as its condition holds. -/
def executeLoop : (fuel : Nat) → CompileUnit → Activity → Env → Expr → List Stmt → Run Ending
  | 0, _, _, _, _, _ => throw .outOfFuel
  | fuel + 1, u, t, env, condition, body => do
    let b ← evaluateTruth fuel u t env condition
    if b then
      let ending ← inScope (fun env ↦ executeAll fuel u t env body) env
      match ending with
      | .next env => executeLoop fuel u t env condition body
      | .result v => pure (.result v)
    else pure (.next env)

end

end Named

end Dossier.Script
