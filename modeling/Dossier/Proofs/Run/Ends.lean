import Dossier.Proofs.Binding.Slots
import Dossier.Script.Run

/-!
# How runs end

`Ends x good bad` says of a run that, on every machine, a result of it is `good` and that otherwise
what it ends with is `bad`.  The statement goes through a run step by step (`Ends.bind`), so that a
proof about the interpreter follows its code.  Calls are not made of such steps: `callMethod_of_room`
and `callMethod_of_full` say what becomes of one.

`Halt.Harmless` is the `bad` of this development: the run referred to nothing that is not there and,
where that can be promised, no argument was missing.  The operations that a run is made of end
harmlessly, each under what it needs.
-/

set_option autoImplicit false

namespace Dossier.Script

/-- A result of the run is `good`, and otherwise what it ends with is `bad`. -/
def Ends {α : Type} (x : Run α) (good : α → Prop) (bad : Halt → Prop) : Prop :=
  ∀ w, match x w with
    | .ok v _ => good v
    | .error halt _ => bad halt

namespace Ends

variable {α β : Type} {x : Run α} {good good' : α → Prop} {bad bad' : Halt → Prop}

theorem ok (h : Ends x good bad) {w w' : Machine} {v : α} (hx : x w = .ok v w') : good v := by
  have := h w
  rwa [hx] at this

theorem error (h : Ends x good bad) {w w' : Machine} {halt : Halt} (hx : x w = .error halt w') :
    bad halt := by
  have := h w
  rwa [hx] at this

theorem mono (h : Ends x good bad) (hg : ∀ v, good v → good' v)
    (hb : ∀ halt, bad halt → bad' halt) : Ends x good' bad' := by
  intro w
  have := h w
  cases hx : x w with
  | ok v w' =>
    rw [hx] at this
    exact hg v this
  | error halt w' =>
    rw [hx] at this
    exact hb halt this

theorem weaken (h : Ends x good bad) (hg : ∀ v, good v → good' v) : Ends x good' bad :=
  h.mono hg fun _ ↦ id

protected theorem pure {v : α} (h : good v) : Ends (pure v) good bad := fun _ ↦ h

protected theorem throw {halt : Halt} (h : bad halt) : Ends (throw halt : Run α) good bad :=
  fun _ ↦ h

/-- **A step and what follows it**: the first may end in any way that the second can start from. -/
protected theorem bind {f : α → Run β} {goodβ : β → Prop} (hx : Ends x good bad)
    (hf : ∀ v, good v → Ends (f v) goodβ bad) : Ends (x >>= f) goodβ bad := by
  intro w
  have := hx w
  show match EStateM.bind x f w with | .ok v _ => goodβ v | .error halt _ => bad halt
  rw [EStateM.bind]
  cases h : x w with
  | ok v w' =>
    rw [h] at this
    exact hf v this w'
  | error halt w' =>
    rw [h] at this
    exact this

end Ends

/-- What follows a step matters only for the results that the step can have. -/
theorem Ends.bind_congr {α β : Type} {x : Run α} {good : α → Prop} {bad : Halt → Prop}
    (h : Ends x good bad) {f g : α → Run β} (hfg : ∀ v, good v → f v = g v) :
    x >>= f = x >>= g := by
  funext w
  show EStateM.bind x f w = EStateM.bind x g w
  rw [EStateM.bind, EStateM.bind]
  cases hx : x w with
  | ok v w' => exact congrFun (hfg v (h.ok hx)) w'
  | error halt w' => rfl

/-- A step with a result, and what follows it from there. -/
theorem bind_of_ok {α β : Type} {x : Run α} {f : α → Run β} {w w' : Machine} {v : α}
    (hx : x w = .ok v w') : (x >>= f) w = f v w' := by
  show EStateM.bind x f w = _
  rw [EStateM.bind, hx]

/-- **A step and what follows it have a result** if the step has one and what follows it from there
has one. -/
theorem exists_of_bind_ok {α β : Type} {x : Run α} {f : α → Run β} {w w' : Machine} {r : β}
    (h : (x >>= f) w = .ok r w') : ∃ v w₁, x w = .ok v w₁ ∧ f v w₁ = .ok r w' := by
  change EStateM.bind x f w = _ at h
  rw [EStateM.bind] at h
  cases hx : x w with
  | ok v w₁ =>
    rw [hx] at h
    exact ⟨v, w₁, rfl, h⟩
  | error halt w₁ =>
    rw [hx] at h
    cases h

/-! ## Calls -/

/-- The activation of a method that is called on an instance. -/
def calleeOf (p : BoundProgram) (m : BoundMethod) (self : Value) : Activation :=
  ⟨p, m, if m.isStatic then .null else self⟩

/-- A call where there is room for one: the method runs in a frame of its own, which is closed again
at its end. -/
theorem callMethod_of_room {p : BoundProgram} {ci mi : Nat} {m : BoundMethod}
    (hm : p.method? ci mi = some m) {w : Machine} (hroom : w.depth < maxCallDepth) (fuel : Nat)
    (self : Value) (args : List Value) :
    callMethod (fuel + 1) p ci mi self args w =
      match runMethod fuel (calleeOf p m self) args { w with depth := w.depth + 1 } with
      | .ok v w => .ok v { w with depth := w.depth - 1 }
      | .error halt w => .error halt { w with depth := w.depth - 1 } := by
  simp only [callMethod, hm, Nat.not_le.2 hroom, if_false]
  rfl

/-- A call where there is no room is refused. -/
theorem callMethod_of_full {p : BoundProgram} {ci mi : Nat} {m : BoundMethod}
    (hm : p.method? ci mi = some m) {w : Machine} (hfull : maxCallDepth ≤ w.depth) (fuel : Nat)
    (self : Value) (args : List Value) :
    callMethod (fuel + 1) p ci mi self args w =
      .error (.failure ⟨m.qualifiedName, .stackOverflow⟩) w := by
  simp only [callMethod, hm, hfull, if_true]
  rfl

/-! ## Runs with a known result -/

/-- Does the run give this integer? -/
def givesInt (x : Run Value) (n : Int64) : Bool :=
  match x .fresh with
  | .ok (.int k) _ => k == n
  | _ => false

theorem exists_of_givesInt {x : Run Value} {n : Int64} (h : givesInt x n = true) :
    ∃ w, x .fresh = .ok (.int n) w := by
  rw [givesInt] at h
  split at h
  · rename_i k w hx
    obtain rfl : k = n := by simpa using h
    exact ⟨w, hx⟩
  · cases h

/-! ## Harmless ends -/

/-- Was a parameter given no value? -/
def Fault.isMissing : Fault → Bool
  | .missingArgument _ => true
  | _ => false

/-- The run referred to nothing that is not there; and if `complete` holds, every parameter was
given a value. -/
def Halt.Harmless (complete : Prop) : Halt → Prop
  | .failure f => complete → f.fault.isMissing = false
  | .stuck => False
  | .outOfFuel => True

theorem Halt.Harmless.mono {complete complete' : Prop} {halt : Halt} (h : complete' → complete)
    (hh : halt.Harmless complete) : halt.Harmless complete' := by
  cases halt with
  | failure f => exact fun hc ↦ hh (h hc)
  | stuck => exact hh
  | outOfFuel => trivial

/-- A computation whose fault is never that of a missing argument. -/
def Supplied (result : Except Fault Value) : Prop :=
  ∀ fault, result = .error fault → fault.isMissing = false

namespace Supplied

theorem ok (v : Value) : Supplied (.ok v) := by simp [Supplied]

theorem error {fault : Fault} (h : fault.isMissing = false) : Supplied (.error fault) := by
  rintro _ ⟨⟩
  exact h

end Supplied

/-! ## Operators and the library -/

theorem UnaryOp.supplied_apply (op : UnaryOp) (v : Value) : Supplied (op.apply v) := by
  cases op <;> cases v <;> first | exact .ok _ | exact .error rfl

namespace BinaryOp

theorem supplied_onFloats (op : BinaryOp) (f : Float → Float → Value) (v w : Value) :
    Supplied (op.onFloats f v w) := by
  rw [onFloats]
  split
  · exact .ok _
  · exact .error rfl

theorem supplied_onNumbers (op : BinaryOp) {f : Int64 → Int64 → Except Fault Value}
    (hf : ∀ a b, Supplied (f a b)) (g : Float → Float → Value) (v w : Value) :
    Supplied (op.onNumbers f g v w) := by
  unfold onNumbers
  split
  · exact hf _ _
  · exact supplied_onFloats op g _ _

theorem supplied_dividing (f : Int64 → Int64 → Int64) (a b : Int64) :
    Supplied (dividing f a b) := by
  rw [dividing]
  split
  · exact .error rfl
  · exact .ok _

theorem supplied_onBools (op : BinaryOp) (f : Bool → Bool → Bool) (v w : Value) :
    Supplied (op.onBools f v w) := by
  unfold onBools
  split
  · exact .ok _
  · exact .error rfl

theorem supplied_sum (v w : Value) : Supplied (sum v w) := by
  rw [sum]
  split
  · exact .ok _
  · exact supplied_onNumbers .add (fun a b ↦ .ok _) _ v w

theorem supplied_apply (op : BinaryOp) (v w : Value) : Supplied (op.apply v w) := by
  cases op with
  | add => exact supplied_sum v w
  | sub | mul => exact supplied_onNumbers _ (fun a b ↦ .ok _) _ v w
  | div | mod => exact supplied_onNumbers _ (supplied_dividing _) _ v w
  | eq | ne => exact .ok _
  | lt | le | gt | ge => exact supplied_onFloats _ _ v w
  | and | or => exact supplied_onBools _ _ v w

end BinaryOp

namespace LibraryMethod

theorem supplied_numberOf_bind {v : Value} {f : Float → Except Fault Value}
    (hf : ∀ x, Supplied (f x)) : Supplied (numberOf v >>= f) := by
  rw [numberOf]
  cases v.number? with
  | some x => exact hf x
  | none => exact .error rfl

theorem supplied_pick (f : Int64 → Int64 → Int64) (g : Float → Float → Float) (v w : Value) :
    Supplied (pick f g v w) := by
  unfold pick
  split
  · exact .ok _
  · exact supplied_numberOf_bind fun x ↦ supplied_numberOf_bind fun y ↦ .ok _

theorem supplied_absolute (v : Value) : Supplied (absolute v) := by
  unfold absolute
  split
  · split
    · exact .error rfl
    · exact .ok _
  · exact supplied_numberOf_bind fun x ↦ .ok _

theorem supplied_toInteger : (v : Value) → Supplied (toInteger v)
  | .int _ | .float _ | .bool _ | .null => .ok _
  | .string s => by
    rw [toInteger]
    split
    · exact .ok _
    · exact .error rfl
  | .void | .object _ => .error rfl

theorem supplied_delay (v : Value) : Supplied (delay v) := by
  unfold delay
  split
  · split
    · exact .ok _
    · exact .error rfl
  · exact .error rfl

theorem supplied_apply {m : LibraryMethod} {args : List Value} {effect : Effect}
    (h : m.apply args = some effect) : Supplied effect.result := by
  cases m with
  | consoleWriteLine =>
    match args, h with
    | [], rfl => exact .ok _
    | _ :: _, rfl => exact .ok _
  | consoleWrite | convertToString =>
    match args, h with
    | _ :: _, rfl => exact .ok _
  | mathMax | mathMin =>
    match args, h with
    | v :: w :: _, rfl => exact supplied_pick _ _ v w
  | mathAbs =>
    match args, h with
    | v :: _, rfl => exact supplied_absolute v
  | convertToInt32 =>
    match args, h with
    | v :: _, rfl => exact supplied_toInteger v
  | stringConcat =>
    cases h
    exact .ok _
  | threadSleep =>
    match args, h with
    | v :: _, rfl => exact supplied_delay v

theorem supplied_carryOut (m : LibraryMethod) {effect : Effect} (h : Supplied effect.result)
    (out : Writer) : Supplied (m.carryOut effect out).1 := by
  unfold carryOut
  split
  · split
    · exact h
    · exact .error rfl
  · exact h

/-- A method that is given as many arguments as it takes comes to a result, with any writer. -/
theorem exists_run_of_accepts {m : LibraryMethod} {args : List Value}
    (h : m.accepts args.length = true) (out : Writer) :
    ∃ result after, m.run args out = some (result, after) ∧ Supplied result := by
  obtain ⟨effect, heffect⟩ := Option.isSome_iff_exists.1 (isSome_apply_of_accepts h)
  have hrun : m.run args out = some (m.carryOut effect out) := by rw [run, heffect, Option.map_some]
  exact ⟨_, _, hrun, m.supplied_carryOut (supplied_apply heffect) out⟩

end LibraryMethod

/-! ## The operations of a run -/

namespace Activation

variable {α : Type} {complete : Prop} (a : Activation)

theorem ends_fail {good : α → Prop} {fault : Fault} (h : fault.isMissing = false) :
    Ends (a.fail fault) good (Halt.Harmless complete) := .throw fun _ ↦ h

theorem ends_lift {result : Except Fault Value} (h : Supplied result) :
    Ends (a.lift result) (fun _ ↦ True) (Halt.Harmless complete) := by
  cases result with
  | ok v => exact .pure trivial
  | error fault => exact a.ends_fail (h fault rfl)

theorem ends_truth (v : Value) : Ends (a.truth v) (fun _ ↦ True) (Halt.Harmless complete) := by
  cases v <;> first | exact .pure trivial | exact a.ends_fail rfl

theorem ends_callLibrary {m : LibraryMethod} {args : List Value}
    (h : m.accepts args.length = true) :
    Ends (a.callLibrary m args) (fun _ ↦ True) (Halt.Harmless complete) := by
  intro w
  obtain ⟨result, after, hrun, hresult⟩ := LibraryMethod.exists_run_of_accepts h w.toWriter
  simp only [callLibrary, hrun]
  exact a.ends_lift hresult { w with toWriter := after }

end Activation

end Dossier.Script
