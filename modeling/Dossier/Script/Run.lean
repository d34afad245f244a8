import Dossier.Number.Power
import Dossier.Script.Arithmetic
import Dossier.Script.Bound

/-!
# Running bound programs

A run of a method works on the slots of its frame, and on a `Machine`, which holds the writer and how
many calls are open.

* Every call has a frame of its own; arguments come first into it, then the defaults of those that
  are missing, each sent to the type of its parameter.
* A call is refused when `maxCallDepth` calls are open; its arguments have been evaluated by then.
* What fails names the method whose frame was the innermost.
* What was written before a failure stays written.  A writer that fails ends the run, too.

A run need not end, so each function has *fuel*, which bounds how deep its recursion goes.  A run that
needs more ends with `Halt.outOfFuel`; every other end is also the end with more fuel.  A run that
refers to a slot, a method or an argument that is not there is `Halt.stuck`, which no bound program
is.
-/

set_option autoImplicit false

namespace Dossier.Script

/-- How many calls may be open at a time. -/
def maxCallDepth : Nat := 256

/-- What a run leaves behind: the writer, and how many calls are open. -/
structure Machine extends Writer where
  /-- How many calls are open. -/
  depth : Nat
  deriving DecidableEq, Repr, Inhabited

/-- A machine on which nothing has run, and whose writer takes every text. -/
def Machine.fresh : Machine := ⟨"", 0⟩

/-- Why a run has no result. -/
inductive Halt where
  /-- It failed. -/
  | failure (f : Failure)
  /-- It referred to something that is not there. -/
  | stuck
  /-- It was not given the fuel to end. -/
  | outOfFuel
  deriving DecidableEq, Repr

/-- A run with a result of type `α`. -/
abbrev Run (α : Type) := EStateM Halt Machine α

/-- The slots of a frame. -/
abbrev Slots := Array Value

/-- How a statement ends. -/
inductive Flow where
  /-- The next statement follows. -/
  | next
  /-- The method ends with this value. -/
  | result (v : Value)
  deriving Repr, Inhabited

/-- What stays the same while a method runs. -/
structure Activation where
  /-- The program. -/
  program : BoundProgram
  /-- The method. -/
  method : BoundMethod
  /-- The instance it runs on. -/
  self : Value

namespace Activation

/-- Ends the run with a fault of the method. -/
def fail {α : Type} (a : Activation) (fault : Fault) : Run α :=
  throw (.failure ⟨a.method.qualifiedName, fault⟩)

/-- Goes on with a result, or ends the run with a fault. -/
def lift {α : Type} (a : Activation) (result : Except Fault α) : Run α :=
  match result with
  | .ok v => pure v
  | .error fault => a.fail fault

/-- Sends a value to a type. -/
def coerce (a : Activation) (type : ValueType) (v : Value) : Run Value :=
  match type.coerce v with
  | .ok v => pure v
  | .error e => a.fail (.coercion e)

/-- The slots at the start: each parameter takes its argument or its default. -/
def parameterSlots (a : Activation) : List BoundParam → List Value → Run (List Value)
  | [], _ => pure []
  | p :: ps, args => do
    let v ← match args, p.default? with
      | arg :: _, _ => pure arg
      | [], some v => pure v
      | [], none => a.fail (.missingArgument p.name)
    let v ← a.coerce p.type v
    let vs ← a.parameterSlots ps (args.drop 1)
    pure (v :: vs)

/-- The slots of a frame: those of the parameters, and null in the others. -/
def slots (a : Activation) (args : List Value) : Run Slots := do
  let vs ← a.parameterSlots a.method.params args
  let free := a.method.frameSize - a.method.params.length
  pure (vs.toArray ++ Array.replicate free .null)

/-- The value in a slot. -/
def load (slots : Slots) (i : Nat) : Run Value :=
  match slots[i]? with
  | some v => pure v
  | none => throw .stuck

/-- The slots with another value in one of them. -/
def store (slots : Slots) (i : Nat) (v : Value) : Run Slots :=
  if i < slots.size then pure (slots.setIfInBounds i v) else throw .stuck

/-- The value that a declaration stores. -/
def initial (a : Activation) (type : Option ValueType) (v : Value) : Run Value :=
  match type with
  | some t => a.coerce t v
  | none => if v.isVoid then a.fail .voidLocal else pure v

/-- The value that an assignment stores. -/
def assigned (a : Activation) (type : Option ValueType) (v : Value) : Run Value :=
  match type with
  | some t => a.coerce t v
  | none => pure v

/-- The truth of a condition. -/
def truth (a : Activation) : Value → Run Bool
  | .bool b => pure b
  | v => a.fail (.coercion (.mismatch v.typeName .bool))

/-- The fault of a value that is thrown. -/
def thrown : Value → Fault
  | .null => .thrownNull
  | v => .thrown v.text

/-- Calls a method of the library. -/
def callLibrary (a : Activation) (m : LibraryMethod) (args : List Value) : Run Value := fun w ↦
  match m.run args w.toWriter with
  | some (result, out) => a.lift result { w with toWriter := out }
  | none => .error .stuck w

end Activation

mutual

/-- The value of an expression. -/
def evaluate : (fuel : Nat) → Activation → Slots → BoundExpr → Run Value
  | 0, _, _, _ => throw .outOfFuel
  | fuel + 1, a, slots, e =>
    match e with
    | .const v => pure v
    | .slot i => Activation.load slots i
    | .self => pure a.self
    | .unary op operand => do
      let v ← evaluate fuel a slots operand
      a.lift (op.apply v)
    | .binary .and left right => do
      let b ← evaluateTruth fuel a slots left
      if b then
        let b ← evaluateTruth fuel a slots right
        pure (.bool b)
      else pure (.bool false)
    | .binary .or left right => do
      let b ← evaluateTruth fuel a slots left
      if b then pure (.bool true)
      else
        let b ← evaluateTruth fuel a slots right
        pure (.bool b)
    | .binary op left right => do
      let v ← evaluate fuel a slots left
      let w ← evaluate fuel a slots right
      a.lift (op.apply v w)
    | .library m args => do
      let vs ← evaluateArgs fuel a slots args
      a.callLibrary m vs
    | .call classIndex methodIndex args => do
      let vs ← evaluateArgs fuel a slots args
      callMethod fuel a.program classIndex methodIndex a.self vs

/-- The truth of an expression. -/
def evaluateTruth : (fuel : Nat) → Activation → Slots → BoundExpr → Run Bool
  | 0, _, _, _ => throw .outOfFuel
  | fuel + 1, a, slots, e => do
    let v ← evaluate fuel a slots e
    a.truth v

/-- The values of arguments; the result of a void method is none. -/
def evaluateArgs : (fuel : Nat) → Activation → Slots → List BoundExpr → Run (List Value)
  | 0, _, _, _ => throw .outOfFuel
  | _ + 1, _, _, [] => pure []
  | fuel + 1, a, slots, e :: es => do
    let v ← evaluate fuel a slots e
    if v.isVoid then a.fail .voidArgument
    else
      let vs ← evaluateArgs fuel a slots es
      pure (v :: vs)

/-- Calls the method at a position, on an instance if it needs one. -/
def callMethod : (fuel : Nat) → BoundProgram → Nat → Nat → Value → List Value → Run Value
  | 0, _, _, _, _, _ => throw .outOfFuel
  | fuel + 1, program, classIndex, methodIndex, self, args => fun w ↦
    match program.method? classIndex methodIndex with
    | none => .error .stuck w
    | some m =>
      let a : Activation := ⟨program, m, if m.isStatic then .null else self⟩
      if maxCallDepth ≤ w.depth then a.fail .stackOverflow w
      else
        match runMethod fuel a args { w with depth := w.depth + 1 } with
        | .ok v w => .ok v { w with depth := w.depth - 1 }
        | .error halt w => .error halt { w with depth := w.depth - 1 }

/-- Runs a method in a new frame. -/
def runMethod : (fuel : Nat) → Activation → List Value → Run Value
  | 0, _, _ => throw .outOfFuel
  | fuel + 1, a, args => do
    let slots ← a.slots args
    let (_, flow) ← executeAll fuel a slots a.method.body
    let v := match flow with
      | .result v => v
      | .next => .void
    if a.method.returns = .void then pure .void else a.coerce a.method.returns v

/-- Executes a statement. -/
def execute : (fuel : Nat) → Activation → Slots → BoundStmt → Run (Slots × Flow)
  | 0, _, _, _ => throw .outOfFuel
  | fuel + 1, a, slots, s =>
    match s with
    | .declare i type init => do
      let v ← match init, type with
        | some e, _ => evaluate fuel a slots e
        | none, some t => pure t.defaultValue
        | none, none => pure .null
      let v ← a.initial type v
      let slots ← Activation.store slots i v
      pure (slots, .next)
    | .assign i type op value => do
      let v ← evaluate fuel a slots value
      let v ← match op with
        | some op => do
          let old ← Activation.load slots i
          a.lift (op.apply old v)
        | none => pure v
      let v ← a.assigned type v
      let slots ← Activation.store slots i v
      pure (slots, .next)
    | .giveBack none => pure (slots, .result .void)
    | .giveBack (some e) => do
      let v ← evaluate fuel a slots e
      pure (slots, .result v)
    | .branch condition body otherwise => do
      let b ← evaluateTruth fuel a slots condition
      executeAll fuel a slots (if b then body else otherwise)
    | .loop condition body => executeLoop fuel a slots condition body
    | .throw e => do
      let v ← evaluate fuel a slots e
      a.fail (Activation.thrown v)
    | .block body => executeAll fuel a slots body
    | .expr e => do
      let _ ← evaluate fuel a slots e
      pure (slots, .next)

/-- Executes statements one after the other, until one ends the method. -/
def executeAll : (fuel : Nat) → Activation → Slots → List BoundStmt → Run (Slots × Flow)
  | 0, _, _, _ => throw .outOfFuel
  | _ + 1, _, slots, [] => pure (slots, .next)
  | fuel + 1, a, slots, s :: rest => do
    let (slots, flow) ← execute fuel a slots s
    match flow with
    | .next => executeAll fuel a slots rest
    | .result v => pure (slots, .result v)

/-- Executes the body of a loop as long as its condition holds. -/
def executeLoop : (fuel : Nat) → Activation → Slots → BoundExpr → List BoundStmt →
    Run (Slots × Flow)
  | 0, _, _, _, _ => throw .outOfFuel
  | fuel + 1, a, slots, condition, body => do
    let b ← evaluateTruth fuel a slots condition
    if b then
      let (slots, flow) ← executeAll fuel a slots body
      match flow with
      | .next => executeLoop fuel a slots condition body
      | .result v => pure (slots, .result v)
    else pure (slots, .next)

end

/-- More fuel than any run uses that ends within a lifetime. -/
def ampleFuel : Nat := Number.twoTo 62

end Dossier.Script
