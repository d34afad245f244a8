import Dossier.Proofs.Run.Encapsulation
import Dossier.Proofs.Run.Kept

/-!
# The depth of calls

A machine counts the calls that are open, and refuses one when there are `maxCallDepth` of them.

* `Stacks` goes along the points of a run, as `Visits` does, and keeps the methods that are running:
  a call puts what it calls in front of the others, which go on when it is over.
* `Appends.depth_eq` says that no piece of a run changes the count, however it ends, and
  `Point.Step.depth_eq` that no step within a body does.
* `Served` are the machines on which calls from outside are made, one after the other.
* `CallLimit` says which calls are refused, and that a refused one does nothing.
* `depth_counts_frames` is the result: wherever a run is, the count is the number of methods that are
  running.
-/

set_option autoImplicit false

namespace Dossier.Script

/-! ## The methods that are running -/

/-- The points that a call of the method at a position comes by, each with the methods that are
running there, the innermost first. -/
inductive Stacks (p : BoundProgram) (ci mi : Nat) (self : Value) (args : List Value)
    (w : Machine) : List Activation → Point → Prop
  | start {m : BoundMethod} {pt : Point} :
    p.method? ci mi = some m → Starts (calleeOf p m self) args w pt →
    Stacks p ci mi self args w [calleeOf p m self] pt
  | stay {live : List Activation} {pt pt' : Point} :
    Stacks p ci mi self args w live pt → pt.Step pt' → pt.Stays pt' →
    Stacks p ci mi self args w live pt'
  | call {live : List Activation} {ci' mi' fuel : Nat} {pt pt' : Point} {es : List BoundExpr}
      {m : BoundMethod} {vs : List Value} {w' : Machine} :
    Stacks p ci mi self args w live pt → pt.code = .expr (.call ci' mi' es) →
    evaluateArgs fuel pt.activation pt.slots es pt.machine = .ok vs w' →
    pt.activation.program.method? ci' mi' = some m →
    Starts (calleeOf pt.activation.program m pt.activation.self) vs w' pt' →
    Stacks p ci mi self args w (calleeOf pt.activation.program m pt.activation.self :: live) pt'

section

variable {p : BoundProgram} {ci mi : Nat} {self : Value} {args : List Value} {w : Machine}

/-- **Every point of a run has the methods that are running there.** -/
theorem reaches_iff_stacks {pt : Point} :
    Reaches p ci mi self args w pt ↔ ∃ live, Stacks p ci mi self args w live pt := by
  constructor
  · intro h
    induction h using Reaches.induction_calls with
    | start m pt hm hstart => exact ⟨_, .start hm hstart⟩
    | stay pt pt' _ hs hstay ih =>
      obtain ⟨live, hlive⟩ := ih
      exact ⟨live, .stay hlive hs hstay⟩
    | call pt pt' _ ci' mi' fuel es m vs w' hc hargs hm hstart ih =>
      obtain ⟨live, hlive⟩ := ih
      exact ⟨_, .call hlive hc hargs hm hstart⟩
  · rintro ⟨live, h⟩
    induction h with
    | start hm hstart => exact .start hm hstart
    | stay _ hs _ ih => exact ih.step hs
    | call _ hc hargs hm hstart ih => exact ih.step (.call hc hargs hm hstart)

end

/-! ## The count -/

/-- **No piece of a run changes the count**, however it ends. -/
theorem Appends.depth_eq {α : Type} {x : Run α} (hx : Appends x) {w w' : Machine}
    {result : Except Halt α} (h : x w = endedWith result w') : w'.depth = w.depth := by
  obtain ⟨result', text, rest, -, happ⟩ := hx w.replies w.depth
  have hend := h.symm.trans (happ w.output)
  cases result <;> cases result' <;> cases hend <;> rfl

theorem Appends.depth_eq_of_ok {α : Type} {x : Run α} (hx : Appends x) {w w' : Machine} {v : α}
    (h : x w = .ok v w') : w'.depth = w.depth := by
  have hend : x w = endedWith (.ok v) w' := h
  exact hx.depth_eq hend

namespace Point

theorem Gives.depth_eq {pt : Point} {e : BoundExpr} {v : Value} {w : Machine}
    (h : pt.Gives e v w) : w.depth = pt.machine.depth := by
  obtain ⟨fuel, h⟩ := h
  exact ((appending fuel).evaluate _ _ _).depth_eq_of_ok h

theorem Passes.depth_eq {pt : Point} {ss : List BoundStmt} {slots : Slots} {w : Machine}
    (h : pt.Passes ss slots w) : w.depth = pt.machine.depth := by
  obtain ⟨fuel, h⟩ := h
  exact ((appending fuel).executeAll _ _ _).depth_eq_of_ok h

/-- The end of the code at a point, with a result or with a failure. -/
theorem Finishes.depth_eq {pt : Point} {w : Machine} (h : pt.Finishes w) :
    w.depth = pt.machine.depth := by
  obtain ⟨fuel, h⟩ := h
  split at h <;> obtain ⟨result, -, h⟩ := h
  · exact ((appending fuel).evaluate _ _ _).depth_eq h
  · exact ((appending fuel).evaluateArgs _ _ _).depth_eq h
  · exact ((appending fuel).execute _ _ _).depth_eq h
  · exact ((appending fuel).executeAll _ _ _).depth_eq h

/-- **No step within a body changes the count.** -/
theorem Step.depth_eq {pt pt' : Point} (h : pt.Step pt') (hstay : pt.Stays pt') :
    pt'.machine.depth = pt.machine.depth := by
  cases h with
  | call hc _ _ hstart =>
    obtain ⟨-, slots, w', -, rfl⟩ := hstart
    exact absurd (hstay _ _ _ hc) (by simp)
  | right _ hgives _ => exact hgives.depth_eq
  | otherArgs _ hgives _ => exact hgives.depth_eq
  | branchBody _ hgives => exact hgives.depth_eq
  | branchOtherwise _ hgives => exact hgives.depth_eq
  | loopBody _ hgives => exact hgives.depth_eq
  | loopAgain _ hgives hpasses => exact hpasses.depth_eq.trans hgives.depth_eq
  | otherStmts _ hexec => exact ((appending _).execute _ _ _).depth_eq_of_ok hexec
  | _ => rfl

/-- A step within a body leads to a point of the same activation. -/
theorem Step.activation_eq {pt pt' : Point} (h : pt.Step pt') (hstay : pt.Stays pt') :
    pt'.activation = pt.activation := (h.within hstay).1

end Point

/-- A body starts with one call more open, where there was room for it. -/
theorem Starts.depth_eq {a : Activation} {args : List Value} {w : Machine} {pt : Point}
    (h : Starts a args w pt) : pt.machine.depth = w.depth + 1 ∧ w.depth < maxCallDepth := by
  obtain ⟨hroom, slots, w', hslots, rfl⟩ := h
  exact ⟨(a.appends_slots args).depth_eq_of_ok hslots, hroom⟩

theorem Starts.activation_eq {a : Activation} {args : List Value} {w : Machine} {pt : Point}
    (h : Starts a args w pt) : pt.activation = a := by
  obtain ⟨-, slots, w', -, rfl⟩ := h
  rfl

namespace Stacks

variable {p : BoundProgram} {ci mi : Nat} {self : Value} {args : List Value} {w : Machine}
  {live : List Activation} {pt : Point}

/-- **The count is the number of methods that are running**, above those that were at the start. -/
theorem depth_eq (h : Stacks p ci mi self args w live pt) :
    pt.machine.depth = w.depth + live.length := by
  induction h with
  | start _ hstart => exact hstart.depth_eq.1
  | stay _ hs hstay ih => rw [hs.depth_eq hstay, ih]
  | call _ _ hargs _ hstart ih =>
    rw [hstart.depth_eq.1, ((appending _).evaluateArgs _ _ _).depth_eq_of_ok hargs, ih,
      List.length_cons, Nat.add_assoc]

/-- **There are never too many of them.** -/
theorem depth_le (h : Stacks p ci mi self args w live pt) : pt.machine.depth ≤ maxCallDepth := by
  induction h with
  | start _ hstart =>
    rw [hstart.depth_eq.1]
    exact hstart.depth_eq.2
  | stay _ hs hstay ih => rwa [hs.depth_eq hstay]
  | call _ _ _ _ hstart _ =>
    rw [hstart.depth_eq.1]
    exact hstart.depth_eq.2

/-- The code at a point is that of the innermost one. -/
theorem head?_eq (h : Stacks p ci mi self args w live pt) : live.head? = some pt.activation := by
  induction h with
  | start _ hstart => rw [hstart.activation_eq, List.head?_cons]
  | stay _ hs hstay ih => rw [hs.activation_eq hstay, ih]
  | call _ _ _ _ hstart _ => rw [hstart.activation_eq, List.head?_cons]

end Stacks

/-! ## The limit -/

/-- The call fails, in the name of what it would have called, and nothing else happens. -/
def Refuses (p : BoundProgram) (ci mi : Nat) (m : BoundMethod) (self : Value) (args : List Value)
    (w : Machine) : Prop :=
  ∀ fuel, callMethod (fuel + 1) p ci mi self args w =
    .error (.failure ⟨m.qualifiedName, .stackOverflow⟩) w

/-- A call is refused where there is no room for it. -/
theorem refuses_iff {p : BoundProgram} {ci mi : Nat} {m : BoundMethod}
    (hm : p.method? ci mi = some m) {self : Value} {args : List Value} {w : Machine} :
    Refuses p ci mi m self args w ↔ maxCallDepth ≤ w.depth := by
  constructor
  · intro h
    by_contra hroom
    -- a call that is not refused asks for the fuel of the method
    have hrun := h 0
    rw [callMethod_of_room hm (Nat.lt_of_not_le hroom)] at hrun
    cases hrun
  · exact fun hfull fuel ↦ callMethod_of_full hm hfull fuel self args

/-- What becomes of a call of the method at a position, made while these methods are running. -/
structure CallLimit (p : BoundProgram) (live : List Activation) (ci mi : Nat) (m : BoundMethod)
    (self : Value) (args : List Value) (w : Machine) : Prop where
  /-- It is refused if the limit has been reached, and only then. -/
  refuses_iff : Refuses p ci mi m self args w ↔ live.length = maxCallDepth
  /-- Nothing of the method runs if it is. -/
  not_starts : live.length = maxCallDepth → ∀ pt, ¬ Starts (calleeOf p m self) args w pt
  /-- The method runs in a frame of its own if it is not, and the count is one more for as long as
  it does. -/
  enters : live.length < maxCallDepth → ∀ fuel,
    callMethod (fuel + 1) p ci mi self args w =
      match runMethod fuel (calleeOf p m self) args { w with depth := live.length + 1 } with
      | .ok v w' => .ok v { w' with depth := live.length }
      | .error halt w' => .error halt { w' with depth := live.length }

/-- **A call is refused exactly if the limit has been reached.** -/
theorem callLimit {p : BoundProgram} {live : List Activation} {ci mi : Nat} {m : BoundMethod}
    (hm : p.method? ci mi = some m) {self : Value} {args : List Value} {w : Machine}
    (hdepth : w.depth = live.length) (hle : live.length ≤ maxCallDepth) :
    CallLimit p live ci mi m self args w where
  refuses_iff := by
    rw [Script.refuses_iff hm, hdepth]
    exact ⟨fun h ↦ Nat.le_antisymm hle h, fun h ↦ Nat.le_of_eq h.symm⟩
  not_starts hfull pt hstart := by
    have hroom := hstart.depth_eq.2
    omega
  enters hroom fuel := by
    rw [callMethod_of_room hm (hdepth ▸ hroom), hdepth]
    -- the method leaves the count as it has found it
    have hrun (result w') (h : runMethod fuel (calleeOf p m self) args
        { w with depth := live.length + 1 } = endedWith result w') : w'.depth = live.length + 1 :=
      ((appending fuel).runMethod _ _).depth_eq h
    cases h : runMethod fuel (calleeOf p m self) args { w with depth := live.length + 1 } with
    | ok v w' => simp [hrun (.ok v) w' h]
    | error halt w' => simp [hrun (.error halt) w' h]

/-! ## Calls from outside -/

/-- The machines on which calls from outside are made: after the first one, the next is made on what
it has left, however it has ended. -/
inductive Served (p : BoundProgram) : Machine → Prop
  | new (out : Writer) : Served p ⟨out, 0⟩
  | call {ci mi fuel : Nat} {self : Value} {args : List Value} {w w' : Machine} :
    Served p w → Leaves (callMethod fuel p ci mi self args) w w' → Served p w'

/-- **No call is open between calls from outside.** -/
theorem Served.depth_eq_zero {p : BoundProgram} {w : Machine} (h : Served p w) : w.depth = 0 := by
  induction h with
  | new => rfl
  | @call ci mi fuel self args w w' _ hleaves ih =>
    obtain ⟨result, -, hend⟩ := hleaves
    rw [((appending fuel).callMethod p ci mi self args).depth_eq hend, ih]

/-! ## The result -/

/-- What the machine knows at a point where these methods are running. -/
structure Point.CountsFrames (pt : Point) (live : List Activation) : Prop where
  /-- It has counted them. -/
  depth : pt.machine.depth = live.length
  /-- There are not too many. -/
  le : live.length ≤ maxCallDepth
  /-- The code at the point is that of the innermost one. -/
  innermost : live.head? = some pt.activation
  /-- When that code has come to an end, with a result or with a failure, the count is as before. -/
  after : ∀ w, pt.Finishes w → w.depth = live.length
  /-- A call at the point, the arguments of which have values, is refused if the limit has been
  reached, and only then. -/
  limit : ∀ ci mi es m fuel vs w, pt.code = .expr (.call ci mi es) →
    evaluateArgs fuel pt.activation pt.slots es pt.machine = .ok vs w →
    pt.activation.program.method? ci mi = some m →
    CallLimit pt.activation.program live ci mi m pt.activation.self vs w
  /-- If so, that failure is what comes of the call expression, after its arguments. -/
  overflow : live.length = maxCallDepth → ∀ ci mi es m fuel vs w,
    pt.code = .expr (.call ci mi es) →
    evaluateArgs fuel pt.activation pt.slots es pt.machine = .ok vs w →
    pt.activation.program.method? ci mi = some m →
    evaluate (fuel + 1) pt.activation pt.slots (.call ci mi es) pt.machine =
      .error (.failure ⟨m.qualifiedName, .stackOverflow⟩) w

/-- **The count is right at every point** of a run that has started where no call was open. -/
theorem Stacks.countsFrames {p : BoundProgram} {ci mi : Nat} {self : Value} {args : List Value}
    {w : Machine} {live : List Activation} {pt : Point} (h : Stacks p ci mi self args w live pt)
    (hw : w.depth = 0) : pt.CountsFrames live := by
  have hdepth : pt.machine.depth = live.length := by rw [h.depth_eq, hw, Nat.zero_add]
  have hle : live.length ≤ maxCallDepth := hdepth ▸ h.depth_le
  refine ⟨hdepth, hle, h.head?_eq, fun w' hend ↦ hend.depth_eq.trans hdepth,
    fun ci mi es m fuel vs w' hc hargs hm ↦ ?_, fun hfull ci mi es m fuel vs w' hc hargs hm ↦ ?_⟩
  · have hargsDepth := ((appending fuel).evaluateArgs _ _ _).depth_eq_of_ok hargs
    exact callLimit hm (hargsDepth.trans hdepth) hle
  · have hargsDepth := ((appending fuel).evaluateArgs _ _ _).depth_eq_of_ok hargs
    cases fuel with
    | zero => cases hargs
    | succ fuel =>
      have hrefuses : Refuses _ ci mi m pt.activation.self vs w' :=
        (refuses_iff hm).2 (hfull ▸ Nat.le_of_eq (hargsDepth.trans hdepth).symm)
      change EStateM.bind _ _ _ = _
      rw [EStateM.bind, hargs]
      exact hrefuses fuel

/-- **The count of open calls is exact.**  A call leaves it as it was, however it ends; none is open
where a call from outside starts; and at every point of the run of such a call the count is the
number of methods that are running, of which there are never more than the limit.  A call is refused
exactly when that many are running, and then nothing of it happens. -/
theorem depth_counts_frames (p : BoundProgram) :
    (∀ ci mi fuel self args w result w',
      callMethod fuel p ci mi self args w = endedWith result w' → w'.depth = w.depth) ∧
    ∀ w, Served p w → w.depth = 0 ∧ ∀ ci mi self args,
      (∀ m, p.method? ci mi = some m → CallLimit p [] ci mi m self args w) ∧
      (∀ pt, Reaches p ci mi self args w pt → ∃ live, Stacks p ci mi self args w live pt) ∧
      ∀ live pt, Stacks p ci mi self args w live pt → pt.CountsFrames live := by
  refine ⟨fun ci mi fuel self args w result w' h ↦ ?_, fun w hw ↦ ?_⟩
  · exact ((appending fuel).callMethod p ci mi self args).depth_eq h
  · have hdepth := hw.depth_eq_zero
    refine ⟨hdepth, fun ci mi self args ↦ ⟨fun m hm ↦ ?_, fun pt ↦ reaches_iff_stacks.1,
      fun live pt h ↦ h.countsFrames hdepth⟩⟩
    exact callLimit hm hdepth (Nat.zero_le _)

/-- A method that only calls itself. -/
def wheelUnit : CompileUnit :=
  ⟨[⟨"Shop", [], [⟨"Wheel", .everyone, false,
    [⟨"Main", .everyone, true, "int", [], "return Main();"⟩]⟩]⟩]⟩

/-- The body of a method that only calls one without arguments comes to that call. -/
theorem Stacks.forwards {p : BoundProgram} {ci mi ci' mi' : Nat} {self : Value}
    {args : List Value} {w : Machine} {live : List Activation} {pt : Point}
    (h : Stacks p ci mi self args w live pt)
    (hc : pt.code = .stmts [.giveBack (some (.call ci' mi' []))]) :
    ∃ pt', Stacks p ci mi self args w live pt' ∧ pt'.activation = pt.activation ∧
      pt'.code = .expr (.call ci' mi' []) := by
  have hreturn := h.stay (.firstStmt hc) (by simp [Point.Stays, hc])
  exact ⟨_, hreturn.stay (.result rfl) (by simp [Point.Stays, Point.go]), rfl, rfl⟩

/-- A static method that only calls itself runs in itself as often as the limit allows. -/
theorem exists_stacks_of_forwards {p : BoundProgram} {ci mi : Nat} {m : BoundMethod}
    (hm : p.method? ci mi = some m) (hforwards : m.forwards ci mi = true)
    (hstatic : m.isStatic = true) (self : Value) {n : Nat} (hn : n < maxCallDepth) :
    ∃ live pt, live.length = n + 1 ∧ Stacks p ci mi self [] .fresh live pt ∧
      pt.activation = calleeOf p m self ∧ pt.code = .expr (.call ci mi []) := by
  obtain ⟨hparams, hbody⟩ := BoundMethod.eq_of_forwards hforwards
  induction n with
  | zero =>
    have h := Stacks.start hm (starts_of_params_eq_nil p hparams self (w := .fresh) (by decide))
    obtain ⟨pt, h, hactivation, hc⟩ := h.forwards (congrArg Code.stmts hbody)
    exact ⟨_, pt, rfl, h, hactivation, hc⟩
  | succ n ih =>
    obtain ⟨live, pt, hlength, h, hactivation, hc⟩ := ih (by omega)
    have hdepth : pt.machine.depth = n + 1 := by
      rw [h.depth_eq, hlength, Machine.fresh, Nat.zero_add]
    have hm' : pt.activation.program.method? ci mi = some m := hactivation ▸ hm
    have hcallee : calleeOf pt.activation.program m pt.activation.self = calleeOf p m self := by
      simp [hactivation, calleeOf, hstatic]
    have hargs : evaluateArgs 1 pt.activation pt.slots [] pt.machine = .ok [] pt.machine := rfl
    have hcall := h.call hc hargs hm'
      (starts_of_params_eq_nil _ hparams pt.activation.self (hdepth ▸ hn))
    obtain ⟨pt', h', hactivation', hc'⟩ := hcall.forwards (congrArg Code.stmts hbody)
    exact ⟨_, pt', by rw [List.length_cons, hlength], h', hactivation'.trans hcallee, hc'⟩

/-- The wheel stops where its method runs `maxCallDepth` times in itself. -/
theorem wheelUnit_stops : ∃ live pt m fuel,
    Served (bindAll wheelUnit []).value .fresh ∧
    Stacks (bindAll wheelUnit []).value 0 0 .null [] .fresh live pt ∧
    live.length = maxCallDepth ∧ pt.machine.depth = maxCallDepth ∧
    (bindAll wheelUnit []).value.method? 0 0 = some m ∧ pt.code = .expr (.call 0 0 []) ∧
    evaluate fuel pt.activation pt.slots (.call 0 0 []) pt.machine =
      .error (.failure ⟨m.qualifiedName, .stackOverflow⟩) pt.machine := by
  have hmain : ((bindAll wheelUnit []).value.method? 0 0).map
      (fun m ↦ (m.forwards 0 0, m.isStatic)) = some (true, true) := by decide +kernel
  rw [Option.map_eq_some_iff] at hmain
  obtain ⟨m, hm, hmain⟩ := hmain
  obtain ⟨hforwards, hstatic⟩ := Prod.mk.inj hmain
  obtain ⟨live, pt, hlength, h, hactivation, hc⟩ :=
    exists_stacks_of_forwards hm hforwards hstatic .null (n := 255) (by decide)
  obtain ⟨-, hserved⟩ := depth_counts_frames (bindAll wheelUnit []).value
  obtain ⟨-, hruns⟩ := hserved .fresh (.new "")
  obtain ⟨-, -, hcounts⟩ := hruns 0 0 .null []
  have hcount := hcounts live pt h
  have hmethod : pt.activation.program.method? 0 0 = some m := hactivation ▸ hm
  exact ⟨live, pt, m, 2, .new "", h, hlength, hcount.depth.trans hlength, hm, hc,
    hcount.overflow hlength 0 0 [] m 1 [] pt.machine hc rfl hmethod⟩

end Dossier.Script
