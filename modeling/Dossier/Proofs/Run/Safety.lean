import Dossier.Drive
import Dossier.Proofs.Run.Points

/-!
# Accepted programs run safely

What binding promises to a run.  Where the interpreter looks for a slot, a method or an argument, it
finds one: `Code.InRange` says this of the code at a point, and `bind_runs_safe` of all points of
all runs.  If defaults trail, as they do in every unit that is made of records, no call in a program
lacks an argument, and no run that is entered does.
-/

set_option autoImplicit false

namespace Dossier.Script

/-- What the code itself refers to is there, in a frame of `size` slots. -/
def Code.InRange (p : BoundProgram) (size : Nat) : Code → Prop
  | .expr (.slot i) => i < size
  | .expr (.call ci mi _) => ∃ m, p.method? ci mi = some m
  | .expr (.library m es) => ∀ vs : List Value, vs.length = es.length → (m.apply vs).isSome
  | .stmt (.declare i _ _) => i < size
  | .stmt (.assign i _ _ _) => i < size
  | _ => True

/-- The run failed because a parameter was given no value. -/
def Misses {α : Type} (r : EStateM.Result Halt Machine α) : Prop :=
  ∃ f w, r = .error (.failure f) w ∧ f.fault.isMissing = true

variable {p : BoundProgram}

theorem inRange_of_wellFormed {size : Nat} {known : List Local} {code : Code}
    (h : code.WellFormed p size known) : code.InRange p size := by
  cases code with
  | expr e =>
    cases h with
    | slot _ hlt => exact hlt
    | library hacc _ =>
      exact fun vs hvs ↦ LibraryMethod.isSome_apply_of_accepts (hvs.symm ▸ hacc)
    | call hm _ _ _ => exact ⟨_, hm⟩
    | _ => trivial
  | args es => trivial
  | stmt s =>
    cases h with
    | declare hlt _ _ _ => exact hlt
    | assign _ hlt _ => exact hlt
    | _ => trivial
  | stmts ss => trivial

theorem Point.Good.inRange {pt : Point} (h : pt.Good p) : pt.code.InRange p pt.slots.size := by
  rw [h.frame.size_eq]
  exact inRange_of_wellFormed h.code

namespace Ends

variable {α : Type} {x : Run α} {good : α → Prop} {complete : Prop}

theorem ne_stuck (h : Ends x good (Halt.Harmless complete)) (w w' : Machine) :
    x w ≠ .error .stuck w' := fun hx ↦ h.error hx

theorem not_misses (h : Ends x good (Halt.Harmless complete)) (hc : complete) (w : Machine) :
    ¬ Misses (x w) := by
  rintro ⟨f, w', hx, hmissing⟩
  exact absurd (h.error hx hc) (by simp [hmissing])

end Ends

/-! ## Entering -/

/-- What is entered is a method that needs no argument. -/
theorem findEntry_ofProgram {name : String} {config : Config} {e : Entry}
    (h : findEntry (Assembly.ofProgram name p) config = .ok e) :
    ∃ ci mi m self, p.method? ci mi = some m ∧ m.required = 0 ∧
      e.run = Assembly.call p ci mi self [] := by
  rw [findEntry, Assembly.ofProgram] at h
  cases hci : p.findClass? config.entryType with
  | none => simp [hci] at h
  | some ci =>
    simp only [hci, Option.map_some] at h
    cases he : Assembly.entry? p ci config.entryMethod with
    | none => simp [he] at h
    | some e' =>
      simp only [he] at h
      split at h
      · exact absurd h (by simp)
      · rename_i hreq
        cases h
        simp only [Assembly.entry?, Option.bind_eq_bind, Option.bind_eq_some_iff] at he
        obtain ⟨c, hc, mi, -, m, hm, he⟩ := he
        split at he
        · cases he
          exact ⟨ci, mi, m, _, by simp [BoundProgram.method?, hc, hm], Nat.eq_zero_of_not_pos hreq,
            rfl⟩
        · exact absurd he (by simp)

/-- An entered method that fails has failed in a run of the program. -/
theorem uncaught_enter {name : String} {config : Config} {out : Writer} {f : Failure}
    (h : (enter (Assembly.ofProgram name p) config out).result = .error (.uncaught f)) :
    ∃ ci mi m self w', p.method? ci mi = some m ∧ m.required = 0 ∧
      callMethod ampleFuel p ci mi self [] ⟨out, 0⟩ = .error (.failure f) w' := by
  rw [enter] at h
  cases hfind : findEntry (Assembly.ofProgram name p) config with
  | error e =>
    simp only [hfind] at h
    cases h
    rw [findEntry] at hfind
    split at hfind
    · simp at hfind
    · split at hfind
      · simp at hfind
      · split at hfind <;> simp at hfind
  | ok e =>
    obtain ⟨ci, mi, m, self, hm, hreq, hrun⟩ := findEntry_ofProgram hfind
    refine ⟨ci, mi, m, self, ?_⟩
    simp only [hfind, hrun, Assembly.call, Assembly.outcome] at h
    split at h
    · simp [Except.mapError] at h
    · rename_i halt w' hcall
      cases halt with
      | failure f' =>
        simp only [Except.mapError, EntryError.ofHalt, Except.error.injEq,
          EntryError.uncaught.injEq] at h
        subst h
        exact ⟨w', hm, hreq, hcall⟩
      | stuck => simp [Except.mapError, EntryError.ofHalt] at h
      | outOfFuel => simp [Except.mapError, EntryError.ofHalt] at h

/-! ## The result -/

/-- **Accepted programs run safely.**  All code of the program is well-formed; no call of a method,
with any instance, arguments and fuel, refers to something that is not there, and all that the code
refers to at a point of it is.  If the defaults of the unit trail, no call expression that a run
comes by fails for want of an argument, nor does a call with as many arguments as its method
requires, nor a method that is entered from outside; and they trail in every unit that is made of
records. -/
theorem bind_runs_safe {u : CompileUnit} {refs : List String} (h : bind u refs = .ok p) :
    p.WellFormed ∧
    (∀ ci mi m self args w, p.method? ci mi = some m →
      (∀ fuel w', callMethod fuel p ci mi self args w ≠ .error .stuck w') ∧
      ∀ pt, Reaches p ci mi self args w pt → pt.code.InRange p pt.slots.size) ∧
    (u.DefaultsTrail →
      (∀ ci mi self args w pt, Reaches p ci mi self args w pt →
        ∀ ci' mi' es fuel, pt.code = .expr (.call ci' mi' es) →
          ¬ Misses (evaluate fuel pt.activation pt.slots (.call ci' mi' es) pt.machine)) ∧
      (∀ ci mi m self args w fuel, p.method? ci mi = some m → m.required ≤ args.length →
        ¬ Misses (callMethod fuel p ci mi self args w)) ∧
      ∀ name config out f,
        (enter (Assembly.ofProgram name p) config out).result = .error (.uncaught f) →
          f.fault.isMissing = false) ∧
    ∀ pl, CompileUnit.ofPlacement pl = .ok u → u.DefaultsTrail := by
  have hp := wellFormed_of_bind h
  refine ⟨hp, fun ci mi m self args w hm ↦ ⟨fun fuel w' ↦ ?_, fun pt hpt ↦ ?_⟩,
    fun hu ↦ ⟨?_, ?_, ?_⟩, fun pl ↦ CompileUnit.defaultsTrail_ofPlacement⟩
  · exact ((sound hp fuel).callMethod self args hm).ne_stuck w w'
  · exact (good_of_reaches hp hpt).inRange
  · intro ci mi self args w pt hpt ci' mi' es fuel hc
    have hgood := good_of_reaches hp hpt
    have he := (sound hp fuel).evaluate hgood.program hgood.frame (hgood.wellFormed hc)
    exact he.not_misses (defaultsTrail_of_bind h hu) pt.machine
  · intro ci mi m self args w fuel hm hargs
    have hcall := (sound hp fuel).callMethod self args hm
    exact hcall.not_misses ⟨defaultsTrail_of_bind h hu, hargs⟩ w
  · intro name config out f hf
    obtain ⟨ci, mi, m, self, w', hm, hreq, hcall⟩ := uncaught_enter hf
    have hsafe := (sound hp ampleFuel).callMethod self [] hm
    exact hsafe.error hcall ⟨defaultsTrail_of_bind h hu, by rw [hreq]; exact Nat.zero_le _⟩

theorem defaultsTrail_smallUnit : smallUnit.DefaultsTrail := by
  intro c hc m hm
  simp only [smallUnit, CompileUnit.classes, List.flatMap_cons, List.flatMap_nil, List.map_cons,
    List.map_nil, List.append_nil, List.mem_singleton] at hc
  subst hc
  rcases List.mem_cons.1 hm with rfl | hm
  · simp [Method.DefaultsTrail]
  · obtain rfl := List.mem_singleton.1 hm
    simp [Method.DefaultsTrail]

/-- The loop of the small unit, in which a call leaves out an argument, never lacks one. -/
theorem smallUnit_runs_safe :
    ¬ Misses (callMethod ampleFuel (bindAll smallUnit []).value 0 1 (.object "Shop.Till") []
      .fresh) := by
  have hm : ((bindAll smallUnit []).value.method? 0 1).map (fun m ↦ m.required) = some 0 := by
    decide +kernel
  rw [Option.map_eq_some_iff] at hm
  obtain ⟨m, hm, hreq⟩ := hm
  obtain ⟨-, -, htrail, -⟩ := bind_runs_safe bind_smallUnit
  obtain ⟨-, hcalls, -⟩ := htrail defaultsTrail_smallUnit
  exact hcalls 0 1 m (.object "Shop.Till") [] .fresh ampleFuel hm (hreq ▸ Nat.le_refl 0)

end Dossier.Script
