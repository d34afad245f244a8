import Dossier.Proofs.Run.Points
import Mathlib.Logic.Relation

/-!
# Runs move by move

The interpreter recurses through the code it runs, so that what is still to be done, in a method and
in those that have called it, is nowhere to be seen.  Here the same runs are taken apart into moves.

* A `Moment` is where a run is between two moves: what is done now (`Focus`), the calls that are
  open, the innermost first, each with its slots and the `Work` that is left in it, and the writer.
* `Moment.next` is one move.  It looks at the innermost call alone; a call is refused where
  `maxCallDepth` of them are open, and a call whose work is done hands its value to the one below.
* A fault ends the run where it arises: `Move.raises` and `Move.refuses` lead to no other moment.
  `Moment.Fails` says with which failure.
* `Comes` leads from a moment to those after it.  As there is at most one next moment, all that a
  run comes by leads to its last moment (`Comes.of_last`).
-/

set_option autoImplicit false

namespace Dossier.Script

/-! ## Moments -/

/-- What is left to do in a call, once there is what it waits for. -/
inductive Work where
  /-- Apply an operator to the value. -/
  | operand (op : UnaryOp)
  /-- Go on with the right operand, if the value of the left one asks for it. -/
  | right (op : BinaryOp) (r : BoundExpr)
  /-- Apply an operator to the value of the left operand and the value. -/
  | operation (op : BinaryOp) (left : Value)
  /-- Take the value for a truth. -/
  | truth
  /-- Go on with the other arguments. -/
  | others (es : List BoundExpr)
  /-- Put a value in front of those of the other arguments. -/
  | prepend (v : Value)
  /-- Call a method of the library with the values. -/
  | library (m : LibraryMethod)
  /-- Call the method at a position with the values. -/
  | call (classIndex methodIndex : Nat)
  /-- Declare a local with the value. -/
  | declare (i : Nat) (type : Option ValueType)
  /-- Assign the value to a local. -/
  | assign (i : Nat) (type : Option ValueType) (op : Option BinaryOp)
  /-- Put the value in a slot. -/
  | store (i : Nat)
  /-- End the method with the value. -/
  | giveBack
  /-- Go on with the one or with the other. -/
  | branch (body otherwise : List BoundStmt)
  /-- Go on with the body, if the condition holds. -/
  | loop (condition : BoundExpr) (body : List BoundStmt)
  /-- Go on with the next round. -/
  | again (condition : BoundExpr) (body : List BoundStmt)
  /-- Throw the value. -/
  | throw
  /-- Drop the value. -/
  | ignore
  /-- Go on with the other statements. -/
  | rest (ss : List BoundStmt)

/-- A call that is open. -/
structure OpenCall where
  /-- The method and its instance. -/
  activation : Activation
  /-- Its slots. -/
  slots : Slots
  /-- What is left to do, what comes next in front. -/
  left : List Work

/-- The same call, in which this is to be done first. -/
def OpenCall.wait (c : OpenCall) (work : Work) : OpenCall := { c with left := work :: c.left }

/-- What is done now. -/
inductive Focus where
  /-- Code of the innermost call runs. -/
  | run (code : Code)
  /-- A method is called. -/
  | call (p : BoundProgram) (classIndex methodIndex : Nat) (self : Value) (args : List Value)
  /-- The innermost call takes its arguments. -/
  | entry (args : List Value)
  /-- An expression has this value. -/
  | value (v : Value)
  /-- Arguments have these values. -/
  | values (vs : List Value)
  /-- A statement has ended in this way. -/
  | flow (flow : Flow)

/-- Where a run is between two moves. -/
structure Moment where
  /-- What is done now. -/
  focus : Focus
  /-- The calls that are open, the innermost first. -/
  calls : List OpenCall
  /-- The writer. -/
  out : Writer

/-- A method is called from outside. -/
def Moment.start (p : BoundProgram) (ci mi : Nat) (self : Value) (args : List Value)
    (out : Writer) : Moment := ⟨.call p ci mi self args, [], out⟩

/-- What comes of a moment. -/
inductive Move where
  /-- The run goes on. -/
  | on (m : Moment)
  /-- The run has its value. -/
  | done (v : Value)
  /-- A fault arises in the innermost call, which leaves the writer so. -/
  | raises (fault : Fault) (out : Writer)
  /-- The call of a method is refused. -/
  | refuses (callee : BoundMethod)
  /-- There is no such move. -/
  | stuck

/-! ## Moves -/

/-- The values of parameters, from arguments and defaults. -/
def parameterValues : List BoundParam → List Value → Except Fault (List Value)
  | [], _ => .ok []
  | p :: ps, args => do
    let v ← match args, p.default? with
      | arg :: _, _ => .ok arg
      | [], some v => .ok v
      | [], none => .error (.missingArgument p.name)
    let v ← (p.type.coerce v).mapError .coercion
    let vs ← parameterValues ps (args.drop 1)
    .ok (v :: vs)

/-- The value that a place of a type takes. -/
def sent (type : Option ValueType) (v : Value) : Except Fault Value :=
  match type with
  | some t => (t.coerce v).mapError .coercion
  | none => .ok v

/-- The value that a declaration stores. -/
def declaredValue (type : Option ValueType) (v : Value) : Except Fault Value :=
  if type.isNone && v.isVoid then .error .voidLocal else sent type v

/-- The truth that a value is. -/
def truthOf : Value → Except Fault Bool
  | .bool b => .ok b
  | v => .error (.coercion (.mismatch v.typeName .bool))

/-- The value of a method whose body has ended. -/
def resultValue (m : BoundMethod) : Flow → Except Fault Value
  | .next => if m.returns = .void then .ok .void else sent (some m.returns) .void
  | .result v => if m.returns = .void then .ok .void else sent (some m.returns) v

/-- The innermost call, without what it does now. -/
structure Scene where
  /-- The innermost call. -/
  call : OpenCall
  /-- The other calls that are open. -/
  below : List OpenCall
  /-- The writer. -/
  out : Writer

namespace Scene

variable (s : Scene)

/-- The run goes on in the same call. -/
def go (focus : Focus) : Move := .on ⟨focus, s.call :: s.below, s.out⟩

/-- The run goes on in the same call, and this is to be done afterwards. -/
def goThen (work : Work) (focus : Focus) : Move :=
  .on ⟨focus, s.call.wait work :: s.below, s.out⟩

/-- The run goes on with what has been found, or a fault arises. -/
def expect {α : Type} (found : Except Fault α) (next : α → Move) : Move :=
  match found with
  | .ok v => next v
  | .error fault => .raises fault s.out

/-- Code starts to run. -/
def run : Code → Move
  | .expr (.const v) => s.go (.value v)
  | .expr (.slot i) =>
    match s.call.slots[i]? with
    | some v => s.go (.value v)
    | none => .stuck
  | .expr .self => s.go (.value s.call.activation.self)
  | .expr (.unary op e) => s.goThen (.operand op) (.run (.expr e))
  | .expr (.binary op l r) => s.goThen (.right op r) (.run (.expr l))
  | .expr (.library m es) => s.goThen (.library m) (.run (.args es))
  | .expr (.call ci mi es) => s.goThen (.call ci mi) (.run (.args es))
  | .args [] => s.go (.values [])
  | .args (e :: es) => s.goThen (.others es) (.run (.expr e))
  | .stmt (.declare i type (some e)) => s.goThen (.declare i type) (.run (.expr e))
  | .stmt (.declare i (some t) none) => s.goThen (.declare i (some t)) (.value t.defaultValue)
  | .stmt (.declare i none none) => s.goThen (.declare i none) (.value .null)
  | .stmt (.assign i type op e) => s.goThen (.assign i type op) (.run (.expr e))
  | .stmt (.giveBack none) => s.go (.flow (.result .void))
  | .stmt (.giveBack (some e)) => s.goThen .giveBack (.run (.expr e))
  | .stmt (.branch c body otherwise) => s.goThen (.branch body otherwise) (.run (.expr c))
  | .stmt (.loop c body) => s.goThen (.loop c body) (.run (.expr c))
  | .stmt (.throw e) => s.goThen .throw (.run (.expr e))
  | .stmt (.block body) => s.go (.run (.stmts body))
  | .stmt (.expr e) => s.goThen .ignore (.run (.expr e))
  | .stmts [] => s.go (.flow .next)
  | .stmts (first :: ss) => s.goThen (.rest ss) (.run (.stmt first))

/-- The work that has waited for a value. -/
def takeValue (v : Value) : Work → Move
  | .operand op => s.expect (op.apply v) fun v ↦ s.go (.value v)
  | .right .and r =>
    s.expect (truthOf v) fun b ↦
      if b then s.goThen .truth (.run (.expr r)) else s.go (.value (.bool false))
  | .right .or r =>
    s.expect (truthOf v) fun b ↦
      if b then s.go (.value (.bool true)) else s.goThen .truth (.run (.expr r))
  | .right op r => s.goThen (.operation op v) (.run (.expr r))
  | .operation op l => s.expect (op.apply l v) fun v ↦ s.go (.value v)
  | .truth => s.expect (truthOf v) fun b ↦ s.go (.value (.bool b))
  | .others es =>
    if v.isVoid then .raises .voidArgument s.out
    else s.goThen (.prepend v) (.run (.args es))
  | .declare i type => s.expect (declaredValue type v) fun v ↦ s.goThen (.store i) (.value v)
  | .assign i type (some op) =>
    match s.call.slots[i]? with
    | some old =>
      s.expect (op.apply old v) fun v ↦ s.goThen (.assign i type none) (.value v)
    | none => .stuck
  | .assign i type none => s.expect (sent type v) fun v ↦ s.goThen (.store i) (.value v)
  | .store i =>
    if i < s.call.slots.size then
      .on ⟨.flow .next, { s.call with slots := s.call.slots.setIfInBounds i v } :: s.below,
        s.out⟩
    else .stuck
  | .giveBack => s.go (.flow (.result v))
  | .branch body otherwise =>
    s.expect (truthOf v) fun b ↦ s.go (.run (.stmts (if b then body else otherwise)))
  | .loop c body =>
    s.expect (truthOf v) fun b ↦
      if b then s.goThen (.again c body) (.run (.stmts body)) else s.go (.flow .next)
  | .throw => .raises (Activation.thrown v) s.out
  | .ignore => s.go (.flow .next)
  | _ => .stuck

/-- The work that has waited for the values of arguments. -/
def takeValues (vs : List Value) : Work → Move
  | .prepend v => s.go (.values (v :: vs))
  | .library m =>
    match m.run vs s.out with
    | some (found, out) =>
      let after : Scene := { s with out := out }
      after.expect found fun v ↦ after.go (.value v)
    | none => .stuck
  | .call ci mi =>
    s.go (.call s.call.activation.program ci mi s.call.activation.self vs)
  | _ => .stuck

/-- The work that has waited for a statement to end. -/
def takeFlow : Flow → Work → Move
  | .next, .rest ss => s.go (.run (.stmts ss))
  | .next, .again c body => s.go (.run (.stmt (.loop c body)))
  | .result v, .rest _ => s.go (.flow (.result v))
  | .result v, .again _ _ => s.go (.flow (.result v))
  | _, _ => .stuck

end Scene

namespace Moment

/-- One move. -/
def next : Moment → Move
  | ⟨.call p ci mi self args, below, out⟩ =>
    match p.method? ci mi with
    | some m =>
      if maxCallDepth ≤ below.length then .refuses m
      else .on ⟨.entry args, ⟨calleeOf p m self, #[], []⟩ :: below, out⟩
    | none => .stuck
  | ⟨.value v, [], _⟩ => .done v
  | ⟨_, [], _⟩ => .stuck
  | ⟨.run code, c :: below, out⟩ => Scene.run ⟨c, below, out⟩ code
  | ⟨.entry args, c :: below, out⟩ =>
    let m := c.activation.method
    Scene.expect ⟨c, below, out⟩ (parameterValues m.params args) fun vs ↦
      let slots := vs.toArray ++ Array.replicate (m.frameSize - m.params.length) .null
      .on ⟨.run (.stmts m.body), { c with slots := slots } :: below, out⟩
  | ⟨.value v, ⟨a, slots, work :: left⟩ :: below, out⟩ =>
    Scene.takeValue ⟨⟨a, slots, left⟩, below, out⟩ v work
  | ⟨.values vs, ⟨a, slots, work :: left⟩ :: below, out⟩ =>
    Scene.takeValues ⟨⟨a, slots, left⟩, below, out⟩ vs work
  | ⟨.flow flow, ⟨a, slots, work :: left⟩ :: below, out⟩ =>
    Scene.takeFlow ⟨⟨a, slots, left⟩, below, out⟩ flow work
  | ⟨.flow flow, ⟨a, slots, []⟩ :: below, out⟩ =>
    -- the call is over, and its value goes to the one below
    Scene.expect ⟨⟨a, slots, []⟩, below, out⟩ (resultValue a.method flow) fun v ↦
      .on ⟨.value v, below, out⟩
  | _ => .stuck

/-- A value goes to the work that waits for it. -/
theorem next_value (v : Value) (c : OpenCall) (work : Work) (below : List OpenCall)
    (out : Writer) :
    next ⟨.value v, c.wait work :: below, out⟩ = Scene.takeValue ⟨c, below, out⟩ v work := rfl

/-- The values of arguments go to the work that waits for them. -/
theorem next_values (vs : List Value) (c : OpenCall) (work : Work) (below : List OpenCall)
    (out : Writer) :
    next ⟨.values vs, c.wait work :: below, out⟩ = Scene.takeValues ⟨c, below, out⟩ vs work := rfl

/-- The run fails here: a fault arises in the innermost call, or a call is refused. -/
inductive Fails : Moment → Failure → Writer → Prop
  | raised {focus : Focus} {c : OpenCall} {below : List OpenCall} {out after : Writer}
      {fault : Fault} :
    next ⟨focus, c :: below, out⟩ = .raises fault after →
    Fails ⟨focus, c :: below, out⟩ ⟨c.activation.method.qualifiedName, fault⟩ after
  | refused {p : BoundProgram} {ci mi : Nat} {self : Value} {args : List Value}
      {below : List OpenCall} {out : Writer} {callee : BoundMethod} :
    p.method? ci mi = some callee → next ⟨.call p ci mi self args, below, out⟩ = .refuses callee →
    Fails ⟨.call p ci mi self args, below, out⟩ ⟨callee.qualifiedName, .stackOverflow⟩ out

/-- A moment and those after it. -/
def Comes : Moment → Moment → Prop := Relation.ReflTransGen fun m m' ↦ m.next = .on m'

/-- Nothing comes after the moment. -/
def IsLast (m : Moment) : Prop := ∀ m', m.next ≠ .on m'

/-- **A failure is the end.** -/
theorem Fails.isLast {m : Moment} {f : Failure} {out : Writer} (h : m.Fails f out) :
    m.IsLast := by
  intro m' hnext
  cases h with
  | raised h => cases h.symm.trans hnext
  | refused _ h => cases h.symm.trans hnext

/-- A moment fails in one way only. -/
theorem Fails.unique {m : Moment} {f f' : Failure} {out out' : Writer}
    (h : m.Fails f out) (h' : m.Fails f' out') : f = f' ∧ out = out' := by
  cases h with
  | raised h =>
    cases h' with
    | raised h' =>
      cases h.symm.trans h'
      exact ⟨rfl, rfl⟩
    | refused _ h' => cases h.symm.trans h'
  | refused _ h =>
    cases h' with
    | raised h' => cases h.symm.trans h'
    | refused _ h' =>
      cases h.symm.trans h'
      exact ⟨rfl, rfl⟩

/-- **There is one way on**: what comes after a moment leads to the last one that does. -/
theorem Comes.of_last {m m' last : Moment} (hlast : m.Comes last) (hend : last.IsLast)
    (h : m.Comes m') : m'.Comes last := by
  induction h with
  | refl => exact hlast
  | tail _ hstep ih =>
    rcases Relation.ReflTransGen.cases_head ih with rfl | ⟨m'', hstep', hrest⟩
    · exact absurd hstep (hend _)
    · cases hstep.symm.trans hstep'
      exact hrest

/-- Two last moments after one moment are the same. -/
theorem Comes.last_eq {m last last' : Moment} (h : m.Comes last) (hend : last.IsLast)
    (h' : m.Comes last') (hend' : last'.IsLast) : last' = last := by
  rcases Relation.ReflTransGen.cases_head (h.of_last hend h') with heq | ⟨m', hstep, -⟩
  · exact heq
  · exact absurd hstep (hend' m')

end Moment

end Dossier.Script
