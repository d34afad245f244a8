import Dossier.Assembly
import Dossier.Proofs.Binding.Access
import Dossier.Proofs.Run.Depends

/-!
# Encapsulation

No access is checked while a program runs: a call finds its method by position, and hands on the
instance that its own method runs on.  Binding has refused all that could go wrong with it.

* `Visits` goes along the points of a run, as `Reaches` does, and keeps the positions of the class
  and of the method whose body runs.
* `Point.OwnedBy` is the invariant: the code at a point is part of that body, and the method runs on
  an instance of its class if it is one with an instance, and on null else.
* `bind_encapsulates` is the result: every call and every `this` that a run of an accepted program
  comes by keeps to the rule, if the run was entered on an instance of the class of its method, and
  the run makes no other calls.  What is entered from outside is entered like this
  (`entry_ofProgram`).
-/

set_option autoImplicit false

namespace Dossier.Script

/-! ## Where the code at a point belongs -/

/-- A step between the points, if there is one, stays in the body that runs: from a call expression
it goes to the arguments. -/
def Point.Stays (pt pt' : Point) : Prop :=
  ∀ ci mi es, pt.code = .expr (.call ci mi es) → pt'.code = .args es

/-- The points that a call of the method at a position comes by, each with the positions of the
class and of the method whose body runs there. -/
inductive Visits (p : BoundProgram) (ci mi : Nat) (self : Value) (args : List Value)
    (w : Machine) : Nat → Nat → Point → Prop
  | start {m : BoundMethod} {pt : Point} :
    p.method? ci mi = some m → Starts (calleeOf p m self) args w pt →
    Visits p ci mi self args w ci mi pt
  | stay {owner index : Nat} {pt pt' : Point} :
    Visits p ci mi self args w owner index pt → pt.Step pt' → pt.Stays pt' →
    Visits p ci mi self args w owner index pt'
  | call {owner index ci' mi' fuel : Nat} {pt pt' : Point} {es : List BoundExpr}
      {m : BoundMethod} {vs : List Value} {w' : Machine} :
    Visits p ci mi self args w owner index pt → pt.code = .expr (.call ci' mi' es) →
    evaluateArgs fuel pt.activation pt.slots es pt.machine = .ok vs w' →
    pt.activation.program.method? ci' mi' = some m →
    Starts (calleeOf pt.activation.program m pt.activation.self) vs w' pt' →
    Visits p ci mi self args w ci' mi' pt'

/-- A step from a call expression is one to the arguments or one to the body of the callee. -/
theorem Point.Step.stays_or_calls {pt pt' : Point} (h : pt.Step pt') :
    pt.Stays pt' ∨
      ∃ ci mi fuel es m vs w, pt.code = .expr (.call ci mi es) ∧
        evaluateArgs fuel pt.activation pt.slots es pt.machine = .ok vs w ∧
        pt.activation.program.method? ci mi = some m ∧
        Starts (calleeOf pt.activation.program m pt.activation.self) vs w pt' := by
  cases h with
  | call hc hargs hm hstart => exact .inr ⟨_, _, _, _, _, _, _, hc, hargs, hm, hstart⟩
  | callArgs hc =>
    left
    intro ci mi es hc'
    cases hc.symm.trans hc'
    rfl
  | _ hc =>
    left
    intro ci mi es hc'
    cases hc.symm.trans hc'

section

variable {p : BoundProgram} {ci mi : Nat} {self : Value} {args : List Value} {w : Machine}

/-- Induction along a run, in which a call is a case of its own. -/
theorem Reaches.induction_calls {motive : ∀ pt, Reaches p ci mi self args w pt → Prop}
    (start : ∀ m pt hm (hstart : Starts (calleeOf p m self) args w pt), motive pt (.start hm hstart))
    (stay : ∀ pt pt' h (hs : pt.Step pt'), pt.Stays pt' → motive pt h → motive pt' (.step h hs))
    (call : ∀ pt pt' h ci' mi' fuel es m vs w' (hc : pt.code = .expr (.call ci' mi' es))
      (hargs : evaluateArgs fuel pt.activation pt.slots es pt.machine = .ok vs w')
      (hm : pt.activation.program.method? ci' mi' = some m)
      (hstart : Starts (calleeOf pt.activation.program m pt.activation.self) vs w' pt'),
      motive pt h → motive pt' (.step h (.call hc hargs hm hstart)))
    {pt : Point} (h : Reaches p ci mi self args w pt) : motive pt h := by
  induction h with
  | start hm hstart => exact start _ _ hm hstart
  | @step pt pt' h hs ih =>
    rcases hs.stays_or_calls with hstay | ⟨ci', mi', fuel, es, m, vs, w', hc, hargs, hm, hstart⟩
    · exact stay pt pt' h hs hstay ih
    · exact call pt pt' h ci' mi' fuel es m vs w' hc hargs hm hstart ih

/-- **Every point of a run has a body that it belongs to.** -/
theorem reaches_iff_visits {pt : Point} :
    Reaches p ci mi self args w pt ↔
      ∃ owner index, Visits p ci mi self args w owner index pt := by
  constructor
  · intro h
    induction h using Reaches.induction_calls with
    | start m pt hm hstart => exact ⟨ci, mi, .start hm hstart⟩
    | stay pt pt' _ hs hstay ih =>
      obtain ⟨owner, index, hv⟩ := ih
      exact ⟨owner, index, .stay hv hs hstay⟩
    | call pt pt' _ ci' mi' fuel es m vs w' hc hargs hm hstart ih =>
      obtain ⟨owner, index, hv⟩ := ih
      exact ⟨ci', mi', .call hv hc hargs hm hstart⟩
  · rintro ⟨owner, index, h⟩
    induction h with
    | start hm hstart => exact .start hm hstart
    | stay _ hs _ ih => exact ih.step hs
    | call _ hc hargs hm hstart ih => exact ih.step (.call hc hargs hm hstart)

end

/-! ## The parts of a body -/

/-- The expressions of code, at every depth. -/
def Code.parts : Code → List BoundExpr
  | .expr e => e.parts
  | .args es => partsOf es
  | .stmt s => s.parts
  | .stmts ss => partsIn ss

/-- **A step within a body leads to a part of the code.** -/
theorem Point.Step.within {pt pt' : Point} (h : pt.Step pt') (hstay : pt.Stays pt') :
    pt'.activation = pt.activation ∧ pt'.code.parts ⊆ pt.code.parts := by
  cases h with
  | call hc _ _ hstart =>
    obtain ⟨-, slots, w', -, rfl⟩ := hstart
    exact absurd (hstay _ _ _ hc) (by simp)
  | loopAgain => exact ⟨rfl, List.Subset.refl _⟩
  -- the rest of a block starts in other slots, and is not `go`
  | otherStmts hc _ => exact ⟨rfl, by simp [hc, Code.parts, partsIn]⟩
  | _ hc =>
    refine ⟨rfl, ?_⟩
    simp [hc, go, Code.parts, BoundExpr.parts, BoundStmt.parts, partsOf, partsIn]

/-! ## The invariant -/

/-- The point is in the body of the method at a position of the program, which runs on an instance
of its class if it needs one. -/
structure Point.OwnedBy (p : BoundProgram) (owner index : Nat) (pt : Point) : Prop where
  /-- The program. -/
  program : pt.activation.program = p
  /-- The method. -/
  method : p.method? owner index = some pt.activation.method
  /-- The instance. -/
  receiver : ∃ c, p.classes[owner]? = some c ∧
    pt.activation.self = if pt.activation.method.isStatic then .null else .object c.fullName
  /-- The code is part of the body. -/
  code : pt.code.parts ⊆ partsIn pt.activation.method.body

theorem BoundProgram.class_of_method? {p : BoundProgram} {ci mi : Nat} {m : BoundMethod}
    (h : p.method? ci mi = some m) :
    ∃ c, p.classes[ci]? = some c ∧ c.methods[mi]? = some m := by
  rwa [method?, Option.bind_eq_bind, Option.bind_eq_some_iff] at h

namespace Point.OwnedBy

variable {p : BoundProgram} {owner index : Nat} {pt pt' : Point}

/-- **The body of a method starts as its own**, on the right instance if it needs one. -/
theorem start {m : BoundMethod} (hm : p.method? owner index = some m) {self : Value}
    (hself : ∀ c, p.classes[owner]? = some c → m.isStatic = false → self = .object c.fullName)
    {args : List Value} {w : Machine} (h : Starts (calleeOf p m self) args w pt) :
    pt.OwnedBy p owner index := by
  obtain ⟨-, slots, w', -, rfl⟩ := h
  obtain ⟨c, hc, -⟩ := p.class_of_method? hm
  refine ⟨rfl, hm, ⟨c, hc, ?_⟩, List.Subset.refl _⟩
  cases hstatic : m.isStatic with
  | true => simp [calleeOf, hstatic]
  | false => simp [calleeOf, hstatic, hself c hc hstatic]

theorem stay (h : pt.OwnedBy p owner index) (hs : pt.Step pt') (hstay : pt.Stays pt') :
    pt'.OwnedBy p owner index := by
  obtain ⟨hactivation, hparts⟩ := hs.within hstay
  exact {
    program := hactivation ▸ h.program
    method := hactivation ▸ h.method
    receiver := hactivation ▸ h.receiver
    code := hactivation ▸ List.Subset.trans hparts h.code }

/-- The expression at a point of an accepted program follows the rule. -/
theorem permits {u : CompileUnit} {refs : List String} (hb : bind u refs = .ok p)
    (h : pt.OwnedBy p owner index) {e : BoundExpr} (hc : pt.code = .expr e) :
    p.Permits owner pt.activation.method.isStatic e := by
  refine permits_of_bind hb h.method e (h.code ?_)
  rw [hc]
  exact e.mem_parts

/-- **A call in an accepted program hands on the right instance.** -/
theorem self_eq {u : CompileUnit} {refs : List String} (hb : bind u refs = .ok p)
    (h : pt.OwnedBy p owner index) {ci mi : Nat} {es : List BoundExpr}
    (hc : pt.code = .expr (.call ci mi es)) {m : BoundMethod} (hm : p.method? ci mi = some m)
    {c : BoundClass} (hclass : p.classes[ci]? = some c) (hinstance : m.isStatic = false) :
    pt.activation.self = .object c.fullName := by
  obtain ⟨m', hm', -, hsame⟩ := h.permits hb hc
  obtain rfl : m' = m := Option.some.inj (hm'.symm.trans hm)
  obtain ⟨rfl, hcaller⟩ := hsame hinstance
  obtain ⟨c', hc', hself⟩ := h.receiver
  obtain rfl : c' = c := Option.some.inj (hc'.symm.trans hclass)
  simpa [hcaller] using hself

end Point.OwnedBy

/-- **A run of an accepted program stays in bodies that run on their own instances**, if it is
entered on one. -/
theorem ownedBy_of_visits {u : CompileUnit} {refs : List String} {p : BoundProgram}
    (h : bind u refs = .ok p) {ci mi : Nat} {c : BoundClass} (hc : p.classes[ci]? = some c)
    {args : List Value} {w : Machine} {owner index : Nat} {pt : Point}
    (hv : Visits p ci mi (.object c.fullName) args w owner index pt) :
    pt.OwnedBy p owner index := by
  induction hv with
  | start hm hstart =>
    refine .start hm (fun c' hc' _ ↦ ?_) hstart
    rw [Option.some.inj (hc'.symm.trans hc)]
  | stay _ hs hstay ih => exact ih.stay hs hstay
  | call _ hcode _ hm hstart ih =>
    rw [ih.program] at hm hstart
    exact .start hm (fun c' hc' ↦ ih.self_eq h hcode hm hc') hstart

/-! ## The result -/

/-- What an assembly offers is called on an instance of its own class, or on the one that is given. -/
theorem entry_ofProgram {p : BoundProgram} {name typeName method : String}
    {entries : String → Option Entry}
    (h : (Assembly.ofProgram name p).instance? typeName = some entries) {e : Entry}
    (he : entries method = some e) :
    ∃ ci mi c, p.findClass? typeName = some ci ∧ p.classes[ci]? = some c ∧ c.fullName = typeName ∧
      c.findMethod? method = some mi ∧ e.run = Assembly.call p ci mi (.object typeName) [] ∧
      ∀ instanceOf, e.runOn instanceOf = Assembly.call p ci mi (.object instanceOf) [] := by
  rw [Assembly.ofProgram, Option.map_eq_some_iff] at h
  obtain ⟨ci, hci, rfl⟩ := h
  simp only [Assembly.entry?, Option.bind_eq_bind, Option.bind_eq_some_iff] at he
  obtain ⟨c, hc, mi, hmi, m, -, he⟩ := he
  have hname : c.fullName = typeName := by
    obtain ⟨hlt, hname, -⟩ := List.findIdx?_eq_some_iff_getElem.1 hci
    obtain ⟨_, rfl⟩ := List.getElem?_eq_some_iff.1 hc
    simpa using hname
  split at he
  · cases he
    exact ⟨ci, mi, c, hci, hc, hname, hmi, by rw [hname], fun _ ↦ rfl⟩
  · exact absurd he (by simp)

/-- What encapsulation asks of a point in the body of the method at a position. -/
structure Point.Encapsulated (p : BoundProgram) (owner index : Nat) (pt : Point) : Prop where
  /-- The method runs on an instance of its class, or on null if it is static. -/
  receiver : ∃ c, p.classes[owner]? = some c ∧ c.methods[index]? = some pt.activation.method ∧
    pt.activation.self = if pt.activation.method.isStatic then .null else .object c.fullName
  /-- A static method does not speak of an instance. -/
  self : pt.code = .expr .self → pt.activation.method.isStatic = false
  /-- What is called is a method of the class, or one that other classes can call. -/
  shared : ∀ ci mi es, pt.code = .expr (.call ci mi es) → ∃ m, p.method? ci mi = some m ∧
    (owner = ci ∨ m.visibility = .everyone ∨ m.visibility = .assembly)
  /-- If it needs an instance, it is a method of the class, so is its caller one with an instance,
  and it runs on an instance of its class. -/
  onInstance : ∀ ci mi es m, pt.code = .expr (.call ci mi es) → p.method? ci mi = some m →
    m.isStatic = false → owner = ci ∧ pt.activation.method.isStatic = false ∧
      ∃ c, p.classes[ci]? = some c ∧
        (calleeOf p m pt.activation.self).self = .object c.fullName

/-- **The code that a method owns keeps to the rule.** -/
theorem Point.OwnedBy.encapsulated {u : CompileUnit} {refs : List String} {p : BoundProgram}
    (hb : bind u refs = .ok p) {owner index : Nat} {pt : Point} (h : pt.OwnedBy p owner index) :
    pt.Encapsulated p owner index where
  receiver := by
    obtain ⟨c, hc, hm⟩ := p.class_of_method? h.method
    obtain ⟨c', hc', hself⟩ := h.receiver
    obtain rfl : c' = c := Option.some.inj (hc'.symm.trans hc)
    exact ⟨c', hc, hm, hself⟩
  self hcode := h.permits hb hcode
  shared ci mi es hcode := by
    obtain ⟨m, hm, hshared, -⟩ := h.permits hb hcode
    exact ⟨m, hm, by simpa [Signature.isShared] using hshared⟩
  onInstance ci mi es m hcode hm hstatic := by
    obtain ⟨m', hm', -, hinstance⟩ := h.permits hb hcode
    obtain rfl : m' = m := Option.some.inj (hm'.symm.trans hm)
    obtain ⟨c, hc, -⟩ := p.class_of_method? hm
    obtain ⟨hsame, hcaller⟩ := hinstance hstatic
    refine ⟨hsame, hcaller, c, hc, ?_⟩
    simpa [calleeOf, hstatic] using h.self_eq hb hcode hm hc hstatic

/-- **Encapsulation holds in every run** of an accepted program that is entered on an instance of
the class of its method: wherever the run is, the code there keeps to the rule.  The calls that it
comes by are all that it makes, so that another program with the same methods there is run in the
same way. -/
theorem bind_encapsulates {u : CompileUnit} {refs : List String} {p : BoundProgram}
    (h : bind u refs = .ok p) {ci mi : Nat} {entry : BoundClass}
    (hentry : p.classes[ci]? = some entry) (args : List Value) (w : Machine) :
    (∀ owner index pt, Visits p ci mi (.object entry.fullName) args w owner index pt →
      pt.Encapsulated p owner index) ∧
    ∀ p' : BoundProgram, p'.method? ci mi = p.method? ci mi →
      (∀ owner index pt ci' mi' es,
        Visits p ci mi (.object entry.fullName) args w owner index pt →
        pt.code = .expr (.call ci' mi' es) → p'.method? ci' mi' = p.method? ci' mi') →
      ∀ fuel, callMethod fuel p' ci mi (.object entry.fullName) args w =
        callMethod fuel p ci mi (.object entry.fullName) args w := by
  refine ⟨fun owner index pt hv ↦ ?_, fun p' hmethod hcalls fuel ↦ ?_⟩
  · exact (ownedBy_of_visits h hentry hv).encapsulated h
  · refine callMethod_eq_of_reaches hmethod (fun pt ci' mi' es hr hcode ↦ ?_) fuel
    obtain ⟨owner, index, hv⟩ := reaches_iff_visits.1 hr
    exact hcalls owner index pt ci' mi' es hv hcode

/-- A class in which the method that is entered asks another one for the instance. -/
def deskUnit : CompileUnit :=
  ⟨[⟨"Shop", [], [⟨"Desk", .everyone, false,
    [⟨"Ask", .owner, false, "object", [], "return this;"⟩,
      ⟨"Main", .everyone, false, "object", [], "return Ask();"⟩]⟩]⟩]⟩

theorem bind_deskUnit : bind deskUnit [] = .ok (bindAll deskUnit []).value :=
  bind_of_clean (by decide +kernel)

/-- Does the method, without any parameter, only give back what the method at a position does? -/
def BoundMethod.forwards (m : BoundMethod) (ci mi : Nat) : Bool :=
  match m.params, m.body with
  | [], [.giveBack (some (.call ci' mi' []))] => ci' == ci && mi' == mi
  | _, _ => false

theorem BoundMethod.eq_of_forwards {m : BoundMethod} {ci mi : Nat} (h : m.forwards ci mi = true) :
    m.params = [] ∧ m.body = [.giveBack (some (.call ci mi []))] := by
  rw [forwards] at h
  split at h
  · rename_i hparams hbody
    obtain ⟨rfl, rfl⟩ : _ = ci ∧ _ = mi := by simpa using h
    exact ⟨hparams, hbody⟩
  · exact absurd h (by simp)

/-- Where the desk calls its own method, that method runs on the desk. -/
theorem deskUnit_encapsulates : ∃ pt m,
    Visits (bindAll deskUnit []).value 0 1 (.object "Shop.Desk") [] .fresh 0 1 pt ∧
    pt.code = .expr (.call 0 0 []) ∧ (bindAll deskUnit []).value.method? 0 0 = some m ∧
    m.isStatic = false ∧
    (calleeOf (bindAll deskUnit []).value m pt.activation.self).self = .object "Shop.Desk" := by
  have hentry : ((bindAll deskUnit []).value.classes[0]?).map (fun c ↦ c.fullName) =
      some "Shop.Desk" := by decide +kernel
  have hask : ((bindAll deskUnit []).value.method? 0 0).map (fun m ↦ m.isStatic) =
      some false := by decide +kernel
  have hmain : ((bindAll deskUnit []).value.method? 0 1).map (fun m ↦ m.forwards 0 0) =
      some true := by decide +kernel
  rw [Option.map_eq_some_iff] at hentry hask hmain
  obtain ⟨entry, hentry, hname⟩ := hentry
  obtain ⟨ask, hask, hstatic⟩ := hask
  obtain ⟨main, hmain, hforwards⟩ := hmain
  obtain ⟨hparams, hbody⟩ := BoundMethod.eq_of_forwards hforwards
  have hstart := Visits.start hmain
    (starts_of_params_eq_nil _ hparams (.object "Shop.Desk") (w := .fresh) (by decide))
  have hreturn := hstart.stay (.firstStmt (congrArg Code.stmts hbody)) (by simp [Point.Stays])
  have hcall := hreturn.stay (.result rfl) (by simp [Point.Stays, Point.go])
  rw [← hname] at hcall
  obtain ⟨hrule, -⟩ := bind_encapsulates bind_deskUnit hentry [] .fresh
  obtain ⟨-, -, c, hc, hself⟩ := (hrule 0 1 _ hcall).onInstance 0 0 [] ask rfl hask hstatic
  rw [hentry] at hc
  cases hc
  rw [hname] at hcall hself
  exact ⟨_, ask, hcall, rfl, hask, hstatic, hself⟩

end Dossier.Script
