import Dossier.Proofs.Run.Sound

/-!
# The points of a run

A run of a method goes from point to point: from a piece of code to its parts, in the order in which
they run, and from a call to the body of what it calls.

* `Point.Step` is one step of this kind.  Where a part runs after others, the step asks that these
  have come to an end, as the interpreter has it, and takes the frame and the machine from there.
* `Reaches` says which points a call of a method comes by.
* `Point.Good` is the invariant: the code at the point is well-formed in a frame that fits it.
  `good_of_reaches` says that a run of a well-formed program never leaves it.

The locals in `Point.known` are those that have a value: the parameters from the start, and each
other local from the end of its own declaration to the end of the block around it.
-/

set_option autoImplicit false

namespace Dossier.Script

/-- What runs at a point. -/
inductive Code where
  | expr (e : BoundExpr)
  | args (es : List BoundExpr)
  | stmt (s : BoundStmt)
  | stmts (ss : List BoundStmt)

namespace Code

/-- The locals that the code declares. -/
def declarations : Code → List Local
  | expr _ => []
  | args _ => []
  | stmt s => s.declarations
  | stmts ss => declarationsIn ss

/-- All that the code refers to is there. -/
def WellFormed (p : BoundProgram) (size : Nat) (known : List Local) : Code → Prop
  | expr e => e.WellFormed p size known
  | args es => ∀ e ∈ es, e.WellFormed p size known
  | stmt s => s.WellFormed p size known
  | stmts ss => AllWellFormed p size known ss

end Code

/-- Where a run is. -/
structure Point where
  /-- The method and its instance. -/
  activation : Activation
  /-- Its frame. -/
  slots : Slots
  /-- The locals in scope, all of which have been given a value. -/
  known : List Local
  /-- What runs next. -/
  code : Code
  /-- The machine. -/
  machine : Machine

/-- The body of a method starts, after a call of it with these arguments on a machine. -/
def Starts (a : Activation) (args : List Value) (w : Machine) (pt : Point) : Prop :=
  w.depth < maxCallDepth ∧
    ∃ slots w', a.slots args { w with depth := w.depth + 1 } = .ok slots w' ∧
      pt = ⟨a, slots, a.method.atStart, .stmts a.method.body, w'⟩

/-- The start of the body of a method without any parameter. -/
theorem starts_of_params_eq_nil (p : BoundProgram) {m : BoundMethod} (hparams : m.params = [])
    (self : Value) {w : Machine} (hroom : w.depth < maxCallDepth) :
    Starts (calleeOf p m self) [] w
      ⟨calleeOf p m self, #[] ++ Array.replicate m.frameSize .null, m.atStart, .stmts m.body,
        { w with depth := w.depth + 1 }⟩ := by
  refine ⟨hroom, _, _, ?_, rfl⟩
  simp [Activation.slots, calleeOf, hparams, Activation.parameterSlots]
  rfl

/-- Does the right operand run after this value of the left one? -/
def BinaryOp.GoesOn : BinaryOp → Value → Prop
  | .and, v => v = .bool true
  | .or, v => v = .bool false
  | _, _ => True

namespace Point

/-- Other code in the same frame, on another machine. -/
def go (pt : Point) (code : Code) (w : Machine) : Point := { pt with code := code, machine := w }

/-- The end of an expression at a point. -/
def Gives (pt : Point) (e : BoundExpr) (v : Value) (w : Machine) : Prop :=
  ∃ fuel, evaluate fuel pt.activation pt.slots e pt.machine = .ok v w

/-- The end of statements at a point that do not end the method. -/
def Passes (pt : Point) (ss : List BoundStmt) (slots : Slots) (w : Machine) : Prop :=
  ∃ fuel, executeAll fuel pt.activation pt.slots ss pt.machine = .ok (slots, .next) w

/-- From code to a part of it, or to the body of a method that it calls. -/
inductive Step : Point → Point → Prop
  | operand {pt : Point} {op : UnaryOp} {e : BoundExpr} :
    pt.code = .expr (.unary op e) → Step pt (pt.go (.expr e) pt.machine)
  | left {pt : Point} {op : BinaryOp} {l r : BoundExpr} :
    pt.code = .expr (.binary op l r) → Step pt (pt.go (.expr l) pt.machine)
  | right {pt : Point} {op : BinaryOp} {l r : BoundExpr} {v : Value} {w : Machine} :
    pt.code = .expr (.binary op l r) → pt.Gives l v w → op.GoesOn v → Step pt (pt.go (.expr r) w)
  | libraryArgs {pt : Point} {m : LibraryMethod} {es : List BoundExpr} :
    pt.code = .expr (.library m es) → Step pt (pt.go (.args es) pt.machine)
  | callArgs {pt : Point} {ci mi : Nat} {es : List BoundExpr} :
    pt.code = .expr (.call ci mi es) → Step pt (pt.go (.args es) pt.machine)
  | call {pt pt' : Point} {ci mi fuel : Nat} {es : List BoundExpr} {m : BoundMethod}
      {vs : List Value} {w : Machine} :
    pt.code = .expr (.call ci mi es) →
    evaluateArgs fuel pt.activation pt.slots es pt.machine = .ok vs w →
    pt.activation.program.method? ci mi = some m →
    Starts (calleeOf pt.activation.program m pt.activation.self) vs w pt' → Step pt pt'
  | firstArg {pt : Point} {e : BoundExpr} {es : List BoundExpr} :
    pt.code = .args (e :: es) → Step pt (pt.go (.expr e) pt.machine)
  | otherArgs {pt : Point} {e : BoundExpr} {es : List BoundExpr} {v : Value} {w : Machine} :
    pt.code = .args (e :: es) → pt.Gives e v w → v ≠ .void → Step pt (pt.go (.args es) w)
  | init {pt : Point} {i : Nat} {type : Option ValueType} {e : BoundExpr} :
    pt.code = .stmt (.declare i type (some e)) → Step pt (pt.go (.expr e) pt.machine)
  | assigned {pt : Point} {i : Nat} {type : Option ValueType} {op : Option BinaryOp}
      {e : BoundExpr} :
    pt.code = .stmt (.assign i type op e) → Step pt (pt.go (.expr e) pt.machine)
  | result {pt : Point} {e : BoundExpr} :
    pt.code = .stmt (.giveBack (some e)) → Step pt (pt.go (.expr e) pt.machine)
  | branchCondition {pt : Point} {c : BoundExpr} {body otherwise : List BoundStmt} :
    pt.code = .stmt (.branch c body otherwise) → Step pt (pt.go (.expr c) pt.machine)
  | branchBody {pt : Point} {c : BoundExpr} {body otherwise : List BoundStmt} {w : Machine} :
    pt.code = .stmt (.branch c body otherwise) → pt.Gives c (.bool true) w →
    Step pt (pt.go (.stmts body) w)
  | branchOtherwise {pt : Point} {c : BoundExpr} {body otherwise : List BoundStmt}
      {w : Machine} :
    pt.code = .stmt (.branch c body otherwise) → pt.Gives c (.bool false) w →
    Step pt (pt.go (.stmts otherwise) w)
  | loopCondition {pt : Point} {c : BoundExpr} {body : List BoundStmt} :
    pt.code = .stmt (.loop c body) → Step pt (pt.go (.expr c) pt.machine)
  | loopBody {pt : Point} {c : BoundExpr} {body : List BoundStmt} {w : Machine} :
    pt.code = .stmt (.loop c body) → pt.Gives c (.bool true) w → Step pt (pt.go (.stmts body) w)
  | loopAgain {pt : Point} {c : BoundExpr} {body : List BoundStmt} {slots : Slots}
      {w w' : Machine} :
    pt.code = .stmt (.loop c body) → pt.Gives c (.bool true) w →
    (pt.go pt.code w).Passes body slots w' →
    Step pt { pt with slots := slots, machine := w' }
  | thrown {pt : Point} {e : BoundExpr} :
    pt.code = .stmt (.throw e) → Step pt (pt.go (.expr e) pt.machine)
  | blockBody {pt : Point} {body : List BoundStmt} :
    pt.code = .stmt (.block body) → Step pt (pt.go (.stmts body) pt.machine)
  | expr {pt : Point} {e : BoundExpr} :
    pt.code = .stmt (.expr e) → Step pt (pt.go (.expr e) pt.machine)
  | firstStmt {pt : Point} {s : BoundStmt} {ss : List BoundStmt} :
    pt.code = .stmts (s :: ss) → Step pt (pt.go (.stmt s) pt.machine)
  | otherStmts {pt : Point} {s : BoundStmt} {ss : List BoundStmt} {fuel : Nat} {slots : Slots}
      {w : Machine} :
    pt.code = .stmts (s :: ss) →
    execute fuel pt.activation pt.slots s pt.machine = .ok (slots, .next) w →
    Step pt ⟨pt.activation, slots, s.known pt.known, .stmts ss, w⟩

end Point

/-- The points that a call of the method at a position comes by. -/
inductive Reaches (p : BoundProgram) (ci mi : Nat) (self : Value) (args : List Value)
    (w : Machine) : Point → Prop
  | start {m : BoundMethod} {pt : Point} :
    p.method? ci mi = some m → Starts (calleeOf p m self) args w pt →
    Reaches p ci mi self args w pt
  | step {pt pt' : Point} :
    Reaches p ci mi self args w pt → pt.Step pt' → Reaches p ci mi self args w pt'

/-! ## The invariant -/

/-- The point lies in a run of the program, and its code is well-formed in its frame. -/
structure Point.Good (p : BoundProgram) (pt : Point) : Prop where
  /-- The program. -/
  program : pt.activation.program = p
  /-- The method is one of the program. -/
  method : ∃ ci mi, p.method? ci mi = some pt.activation.method
  /-- The frame has values for the locals in scope. -/
  frame : Frame pt.activation.method.frameSize pt.known pt.slots
  /-- The code is well-formed. -/
  code : pt.code.WellFormed p pt.activation.method.frameSize pt.known
  /-- The locals in scope are those of the method. -/
  known : ∀ l ∈ pt.known, l ∈ pt.activation.method.locals
  /-- So are those that the code declares. -/
  declared : ∀ l ∈ pt.code.declarations, l ∈ pt.activation.method.locals

namespace Point.Good

variable {p : BoundProgram} {pt pt' : Point}

/-- Other code in the same frame. -/
theorem go (h : pt.Good p) {code : Code} (w : Machine)
    (hc : code.WellFormed p pt.activation.method.frameSize pt.known)
    (hd : ∀ l ∈ code.declarations, l ∈ pt.activation.method.locals) : (pt.go code w).Good p :=
  ⟨h.program, h.method, h.frame, hc, h.known, hd⟩

theorem expr (h : pt.Good p) {e : BoundExpr} (w : Machine)
    (he : e.WellFormed p pt.activation.method.frameSize pt.known) : (pt.go (.expr e) w).Good p :=
  h.go w he (by simp [Code.declarations])

theorem args (h : pt.Good p) {es : List BoundExpr} (w : Machine)
    (hes : ∀ e ∈ es, e.WellFormed p pt.activation.method.frameSize pt.known) :
    (pt.go (.args es) w).Good p :=
  h.go w hes (by simp [Code.declarations])

theorem wellFormed (h : pt.Good p) {code : Code} (hc : pt.code = code) :
    code.WellFormed p pt.activation.method.frameSize pt.known := hc ▸ h.code

theorem mem_locals (h : pt.Good p) {code : Code} (hc : pt.code = code) :
    ∀ l ∈ code.declarations, l ∈ pt.activation.method.locals := hc ▸ h.declared

/-- **The body of a method starts at a good point.** -/
theorem start (hp : p.WellFormed) {ci mi : Nat} {m : BoundMethod} (hm : p.method? ci mi = some m)
    {self : Value} {args : List Value} {w : Machine} (h : Starts (calleeOf p m self) args w pt) :
    pt.Good p := by
  obtain ⟨-, slots, w', hslots, rfl⟩ := h
  have hwf := hp ci mi m hm
  exact {
    program := rfl
    method := ⟨ci, mi, hm⟩
    frame := (ends_slots (a := calleeOf p m self) hwf args).ok hslots
    code := hwf.body
    known := fun l hl ↦ List.mem_append_left _ (List.mem_reverse.1 hl)
    declared := fun l hl ↦ List.mem_append_right _ hl }

/-- The end of a statement leads to a good point again. -/
theorem after (h : pt.Good p) {s : BoundStmt} {ss : List BoundStmt} {slots : Slots} {w : Machine}
    (hc : pt.code = .stmts (s :: ss))
    (hf : Frame pt.activation.method.frameSize (s.known pt.known) slots) :
    Good p ⟨pt.activation, slots, s.known pt.known, .stmts ss, w⟩ := by
  have hd := h.mem_locals hc
  simp only [Code.declarations, declarationsIn, List.mem_append] at hd
  have hwf := h.wellFormed hc
  refine ⟨h.program, h.method, hf, ?_, ?_, fun l hl ↦ hd l (Or.inr hl)⟩
  · cases hwf with
    | cons _ hrest => exact hrest
  · cases s with
    | declare i type init =>
      intro l hl
      rcases List.mem_cons.1 hl with rfl | hl
      · exact hd _ (Or.inl (List.mem_singleton_self _))
      · exact h.known l hl
    | _ => exact h.known

/-- **A step from a good point leads to a good point.** -/
theorem step (hp : p.WellFormed) (h : pt.Good p) (hs : pt.Step pt') : pt'.Good p := by
  cases hs with
  | operand hc =>
    cases h.wellFormed hc with
    | unary he => exact h.expr _ he
  | left hc =>
    cases h.wellFormed hc with
    | binary hl _ => exact h.expr _ hl
  | right hc _ _ =>
    cases h.wellFormed hc with
    | binary _ hr => exact h.expr _ hr
  | libraryArgs hc =>
    cases h.wellFormed hc with
    | library _ hes => exact h.args _ hes
  | callArgs hc =>
    cases h.wellFormed hc with
    | call _ _ _ hes => exact h.args _ hes
  | call _ _ hm hstart =>
    rw [h.program] at hm hstart
    exact start hp hm hstart
  | firstArg hc =>
    exact h.expr _ (h.wellFormed hc _ (List.mem_cons_self ..))
  | otherArgs hc _ _ =>
    exact h.args _ fun e he ↦ h.wellFormed hc e (List.mem_cons_of_mem _ he)
  | init hc =>
    cases h.wellFormed hc with
    | declare _ _ _ he => exact h.expr _ (he _ rfl)
  | assigned hc =>
    cases h.wellFormed hc with
    | assign _ _ he => exact h.expr _ he
  | result hc =>
    cases h.wellFormed hc with
    | giveBack he => exact h.expr _ (he _ rfl)
  | branchCondition hc =>
    cases h.wellFormed hc with
    | branch he _ _ => exact h.expr _ he
  | branchBody hc _ =>
    cases h.wellFormed hc with
    | branch _ hbody _ =>
      exact h.go _ hbody fun l hl ↦ h.mem_locals hc l (List.mem_append_left _ hl)
  | branchOtherwise hc _ =>
    cases h.wellFormed hc with
    | branch _ _ hotherwise =>
      exact h.go _ hotherwise fun l hl ↦ h.mem_locals hc l (List.mem_append_right _ hl)
  | loopCondition hc =>
    cases h.wellFormed hc with
    | loop he _ => exact h.expr _ he
  | loopBody hc _ =>
    cases h.wellFormed hc with
    | loop _ hbody => exact h.go _ hbody fun l hl ↦ h.mem_locals hc l hl
  | loopAgain hc _ hpasses =>
    -- the body has declared locals of its own, which are out of scope again
    obtain ⟨fuel, hbody⟩ := hpasses
    cases h.wellFormed hc with
    | loop _ hwf =>
      have hf := ((sound hp fuel).executeAll h.program h.frame hwf).ok hbody
      exact ⟨h.program, h.method, hf, h.code, h.known, h.declared⟩
  | thrown hc =>
    cases h.wellFormed hc with
    | throw he => exact h.expr _ he
  | blockBody hc =>
    cases h.wellFormed hc with
    | block hbody => exact h.go _ hbody fun l hl ↦ h.mem_locals hc l hl
  | expr hc =>
    cases h.wellFormed hc with
    | expr he => exact h.expr _ he
  | firstStmt hc =>
    cases h.wellFormed hc with
    | cons hfirst _ =>
      exact h.go _ hfirst fun l hl ↦ h.mem_locals hc l (List.mem_append_left _ hl)
  | @otherStmts s ss fuel slots w hc hexec =>
    cases h.wellFormed hc with
    | cons hfirst _ =>
      exact h.after hc (((sound hp fuel).execute h.program h.frame hfirst).ok hexec)

end Point.Good

/-- **A run of a well-formed program comes by good points only.** -/
theorem good_of_reaches {p : BoundProgram} (hp : p.WellFormed) {ci mi : Nat} {self : Value}
    {args : List Value} {w : Machine} {pt : Point} (h : Reaches p ci mi self args w pt) :
    pt.Good p := by
  induction h with
  | start hm hstart => exact .start hp hm hstart
  | step _ hs ih => exact ih.step hp hs

end Dossier.Script
