import Dossier.Drive
import Dossier.Proofs.Run.Encapsulation
import Dossier.Proofs.Run.Kept

/-!
# Independent steps

Doing several steps with one assembly is doing each of them with an assembly of its own, and writing
down what they write one after the other.

* `Steady` says of what a method does that it does not look at what has been written, and writes behind
  it; `Assembly.Steady` says this of all that an assembly offers.  The methods of a program are steady
  because its runs are (`Appends`).
* `Assembly.chosen?` is the run that a step makes.  A step without one is refused, and writes nothing
  (`step_of_none`); any other one leaves to the run what it writes (`step_of_chosen`).
* A writer that fails is felt by the step that hands it a text.  `Assembly.alone` is what the steps do
  each on its own, with such answers of the writer as those before have left; a writer that takes every
  text has nothing else to leave (`Steady.alone_nil`).
* `steps_independent` is the result for compiled scripts.  For one step it adds, from
  `callMethod_keeps`, that all that was written at any point of the run is kept.
-/

set_option autoImplicit false

namespace Dossier

open Script (Halt Value Leaves Machine Point Reaches Reply Writer callMethod)

/-! ## Methods that write behind what is there -/

/-- What is run ends in the same way whatever has been written, and writes the same behind it; the
writer keeps the answers that it was not asked for. -/
def Steady (run : Writer → Outcome) : Prop :=
  ∀ replies, ∃ result text rest, rest <:+ replies ∧
    ∀ written, run ⟨written, replies⟩ = ⟨⟨written ++ text, rest⟩, result⟩

namespace Assembly

/-- All methods that the assembly offers are steady, on every instance. -/
def Steady (a : Assembly) : Prop :=
  ∀ typeName entries method e, a.instance? typeName = some entries → entries method = some e →
    Dossier.Steady e.run ∧ ∀ instanceOf, Dossier.Steady (e.runOn instanceOf)

theorem steady_outcome {x : Script.Run Value} (hx : Script.Appends x) :
    Dossier.Steady (outcome x) := by
  intro replies
  obtain ⟨result, text, rest, hrest, h⟩ := hx replies 0
  refine ⟨result, text, rest, hrest, fun written ↦ ?_⟩
  simp only [outcome, h]
  cases result <;> rfl

/-- **The methods of a program are steady.** -/
theorem steady_ofProgram (name : String) (p : Script.BoundProgram) : (ofProgram name p).Steady := by
  intro typeName entries method e h he
  obtain ⟨ci, mi, c, -, -, -, -, hrun, hrunOn⟩ := Script.entry_ofProgram h he
  have hcall (self : Value) : Dossier.Steady (call p ci mi self []) :=
    steady_outcome ((Script.appending Script.ampleFuel).callMethod _ _ _ _ _)
  exact ⟨hrun ▸ hcall _, fun instanceOf ↦ hrunOn instanceOf ▸ hcall _⟩

/-- A run that comes to an end leaves a machine with the writer. -/
theorem leaves_of_outcome {x : Script.Run Value} {out : Writer}
    (h : (outcome x out).result ≠ .error .outOfFuel) :
    ∃ w, Leaves x ⟨out, 0⟩ w ∧ (outcome x out).writer = w.toWriter := by
  rw [outcome] at h ⊢
  cases hx : x ⟨out, 0⟩ with
  | ok v w => exact ⟨w, ⟨.ok v, by simp, hx⟩, rfl⟩
  | error halt w =>
    rw [hx] at h
    exact ⟨w, ⟨.error halt, by simpa using h, hx⟩, rfl⟩

end Assembly

/-! ## What a step runs -/

/-- The full name of the class of the method that a step is about. -/
def Step.typeName : Step → String
  | .enter config => config.entryType
  | .invoke typeName _ _ => typeName

/-- The name of the method that a step is about. -/
def Step.method : Step → String
  | .enter config => config.entryMethod
  | .invoke _ method _ => method

/-- The full name of the class of the instance that a step makes. -/
def Step.instanceOf : Step → String
  | .enter config => config.entryType
  | .invoke _ _ instanceOf => instanceOf

/-- The run that a step makes of its method. -/
def Step.runs : Step → Entry → Writer → Outcome
  | .enter _, e => e.run
  | .invoke _ _ instanceOf, e => e.runOn instanceOf

/-- Was the step refused before anything was run: for its type, its method or the parameters that
need an argument? -/
def StepResult.isRefused : StepResult → Bool
  | .entered (.error (.typeNotFound _ _)) => true
  | .entered (.error (.methodNotFound _ _)) => true
  | .entered (.error (.requiredParameters _ _ _)) => true
  | .noType => true
  | .noMethod => true
  | _ => false

/-- Did the run of a method not come to an end? -/
def StepResult.isUnfinished : StepResult → Bool
  | .entered (.error .unfinished) => true
  | .invoked _ _ (.error .outOfFuel) => true
  | _ => false

namespace Assembly

variable {a : Assembly} {st : Step} {e : Entry}

/-- The method that a step runs, if it is not refused. -/
def chosen? (a : Assembly) : Step → Option Entry
  | .enter config => (findEntry a config).toOption
  | .invoke typeName method instanceOf =>
    match a.instance? instanceOf, a.instance? typeName with
    | some _, some entries => entries method
    | _, _ => none

theorem findEntry_eq_ok {config : Config} (h : findEntry a config = .ok e) :
    ∃ entries, a.instance? config.entryType = some entries ∧
      entries config.entryMethod = some e := by
  rw [findEntry] at h
  split at h
  · cases h
  · rename_i entries hentries
    split at h
    · cases h
    · rename_i e' he
      split at h
      · cases h
      · cases h
        exact ⟨entries, hentries, he⟩

theorem findEntry_of_chosen {config : Config} (h : a.chosen? (.enter config) = some e) :
    findEntry a config = .ok e := by
  rw [chosen?] at h
  cases hfind : findEntry a config with
  | error error => simp [hfind, Except.toOption] at h
  | ok e' => simpa [hfind, Except.toOption] using h

theorem instances_of_chosen {typeName method instanceOf : String}
    (h : a.chosen? (.invoke typeName method instanceOf) = some e) :
    ∃ others entries, a.instance? instanceOf = some others ∧
      a.instance? typeName = some entries ∧ entries method = some e := by
  rw [chosen?] at h
  split at h
  · rename_i others entries hothers hentries
    exact ⟨others, entries, hothers, hentries, h⟩
  · cases h

/-- What is run is offered by the assembly, under the names of the step. -/
theorem offered_of_chosen (h : a.chosen? st = some e) :
    ∃ entries, a.instance? st.typeName = some entries ∧ entries st.method = some e := by
  cases st with
  | enter config => exact findEntry_eq_ok (findEntry_of_chosen h)
  | invoke typeName method instanceOf =>
    obtain ⟨-, entries, -, hentries, he⟩ := instances_of_chosen h
    exact ⟨entries, hentries, he⟩

/-- **A step without a method** is refused, and leaves the writer as it is. -/
theorem step_of_none (h : a.chosen? st = none) :
    ∃ result : StepResult, result.isRefused = true ∧ ∀ out, a.step out st = (result, out) := by
  cases st with
  | enter config =>
    simp only [step, enter]
    cases hfind : findEntry a config with
    | ok e => simp [chosen?, hfind, Except.toOption] at h
    | error error =>
      refine ⟨.entered (.error error), ?_, fun out ↦ rfl⟩
      rw [findEntry] at hfind
      split at hfind
      · cases hfind
        rfl
      · split at hfind
        · cases hfind
          rfl
        · split at hfind
          · cases hfind
            rfl
          · cases hfind
  | invoke typeName method instanceOf =>
    cases hothers : a.instance? instanceOf with
    | none => exact ⟨.noType, rfl, fun out ↦ by simp only [step, hothers]⟩
    | some others =>
      cases hentries : a.instance? typeName with
      | none => exact ⟨.noType, rfl, fun out ↦ by simp only [step, hothers, hentries]⟩
      | some entries =>
        have hnone : entries method = none := by simpa only [chosen?, hothers, hentries] using h
        exact ⟨.noMethod, rfl, fun out ↦ by simp only [step, hothers, hentries, hnone]⟩

/-- **A step with a method** is the run of it, under a result that is not a refusal. -/
theorem step_of_chosen (h : a.chosen? st = some e) :
    ∃ wrap : Except Halt Value → StepResult, (∀ r, (wrap r).isRefused = false) ∧
      (wrap (.error .outOfFuel)).isUnfinished = true ∧
      ∀ out, a.step out st = (wrap (st.runs e out).result, (st.runs e out).writer) := by
  cases st with
  | enter config =>
    refine ⟨fun r ↦ .entered (r.mapError EntryError.ofHalt), fun r ↦ ?_, rfl, fun out ↦ ?_⟩
    · cases r with
      | ok v => rfl
      | error halt => cases halt <;> rfl
    · simp only [step, enter, findEntry_of_chosen h, Step.runs]
  | invoke typeName method instanceOf =>
    obtain ⟨others, entries, hothers, hentries, he⟩ := instances_of_chosen h
    exact ⟨.invoked e.name e.required, fun r ↦ rfl, rfl, fun out ↦ by
      simp only [step, hothers, hentries, he, Step.runs]⟩

/-! ## One step after the other -/

/-- **A step does not look at the output**, and writes behind it. -/
theorem Steady.step_eq (ha : a.Steady) (replies : List Reply) (st : Step) :
    ∃ result text rest, rest <:+ replies ∧
      ∀ written, a.step ⟨written, replies⟩ st = (result, ⟨written ++ text, rest⟩) := by
  cases h : a.chosen? st with
  | none =>
    obtain ⟨result, -, hstep⟩ := step_of_none h
    refine ⟨result, "", replies, List.suffix_rfl, fun written ↦ ?_⟩
    rw [hstep, String.append_empty]
  | some e =>
    obtain ⟨wrap, -, -, hstep⟩ := step_of_chosen h
    obtain ⟨entries, hentries, he⟩ := offered_of_chosen h
    obtain ⟨hrun, hrunOn⟩ := ha _ entries _ e hentries he
    have hsteady : Dossier.Steady (st.runs e) := by
      cases st with
      | enter config => exact hrun
      | invoke typeName method instanceOf => exact hrunOn instanceOf
    obtain ⟨result, text, rest, hrest, hwrites⟩ := hsteady replies
    refine ⟨wrap result, text, rest, hrest, fun written ↦ ?_⟩
    rw [hstep, hwrites]

/-- What the steps do each on its own: with an output of its own, and with a writer that has the
answers left that the steps before have not asked it for.  Beside the result there is what the step
writes. -/
def alone (a : Assembly) : List Reply → List Step → List (StepResult × String)
  | _, [] => []
  | replies, st :: sts =>
    let done := a.step ⟨"", replies⟩ st
    (done.1, done.2.output) :: a.alone done.2.replies sts

/-- What the steps write, each on its own and to a writer that takes every text, one after the
other. -/
def writtenBy (a : Assembly) (sts : List Step) : String :=
  String.join (sts.map fun st ↦ (a.step "" st).2.output)

theorem length_steps (a : Assembly) (out : Writer) (sts : List Step) :
    (a.steps out sts).length = sts.length := by
  induction sts generalizing out with
  | nil => rfl
  | cons st sts ih => rw [steps, List.length_cons, List.length_cons, ih]

/-- **Steps are done as if each were done on its own**, and write one after the other. -/
theorem Steady.getElem?_steps (ha : a.Steady) (written : String) (replies : List Reply)
    (sts : List Step) (i : Nat) :
    (a.steps ⟨written, replies⟩ sts)[i]? = ((a.alone replies sts)[i]?).map fun done ↦
      (done.1, written ++ String.join (((a.alone replies sts).take (i + 1)).map Prod.snd)) := by
  induction sts generalizing written replies i with
  | nil => rfl
  | cons st sts ih =>
    obtain ⟨result, text, rest, -, hstep⟩ := ha.step_eq replies st
    simp only [steps, alone, hstep, String.empty_append]
    cases i with
    | zero => simp
    | succ i =>
      simp only [List.getElem?_cons_succ, List.take_succ_cons, List.map_cons, String.join_cons, ih,
        String.append_assoc]

/-- **A writer that takes every text** is the same for each step. -/
theorem Steady.alone_nil (ha : a.Steady) (sts : List Step) :
    a.alone [] sts = sts.map fun st ↦ ((a.step "" st).1, (a.step "" st).2.output) := by
  induction sts with
  | nil => rfl
  | cons st sts ih =>
    obtain ⟨result, text, rest, hrest, hstep⟩ := ha.step_eq [] st
    obtain rfl := List.suffix_nil.1 hrest
    simp only [alone, hstep, ih, List.map_cons]

/-! ## What is kept -/

/-- **A step keeps what its run has written**, at whatever point, also if the run fails. -/
theorem step_keeps {p : Script.BoundProgram} {name : String} {out : Writer}
    (hrun : ((ofProgram name p).step out st).1.isRefused = false)
    (hend : ((ofProgram name p).step out st).1.isUnfinished = false)
    {ci mi : Nat} {c : Script.BoundClass} (hci : p.findClass? st.typeName = some ci)
    (hc : p.classes[ci]? = some c) (hmi : c.findMethod? st.method = some mi) {pt : Point}
    (hpt : Reaches p ci mi (.object st.instanceOf) [] ⟨out, 0⟩ pt) :
    ∃ text, ((ofProgram name p).step out st).2.output = pt.machine.output ++ text := by
  cases h : (ofProgram name p).chosen? st with
  | none =>
    obtain ⟨result, hrefused, hstep⟩ := step_of_none h
    rw [hstep out, hrefused] at hrun
    cases hrun
  | some e =>
    obtain ⟨wrap, -, hunfinished, hstep⟩ := step_of_chosen h
    obtain ⟨entries, hentries, he⟩ := offered_of_chosen h
    obtain ⟨ci', mi', c', hci', hc', -, hmi', hown, hother⟩ := Script.entry_ofProgram hentries he
    obtain rfl := Option.some.inj (hci'.symm.trans hci)
    obtain rfl := Option.some.inj (hc'.symm.trans hc)
    obtain rfl := Option.some.inj (hmi'.symm.trans hmi)
    have hcall : st.runs e = call p ci' mi' (.object st.instanceOf) [] := by
      cases st with
      | enter config => exact hown
      | invoke typeName method instanceOf => exact hother instanceOf
    rw [hstep out, hcall] at hend ⊢
    have hfuel : (call p ci' mi' (.object st.instanceOf) [] out).result ≠ .error .outOfFuel := by
      intro hout
      rw [hout, hunfinished] at hend
      cases hend
    obtain ⟨w, hleaves, hwriter⟩ := leaves_of_outcome hfuel
    obtain ⟨text, hkept⟩ := Script.callMethod_keeps hpt hleaves
    exact ⟨text, (congrArg Writer.output hwriter).trans hkept⟩

end Assembly

/-! ## The result -/

/-- **The steps with a compiled script are independent.**  Whatever has been written to a writer that
takes every text, each step has the result that it has on another assembly that is compiled of the
same, and after it there is on the output what was there, and then what the steps up to it write there
on their own, one after the other.  The same holds of any writer, where each step is met by the answers
that are left of those to the steps before, and only by them.  A step that is refused leaves the writer
as it is; and if one that is not comes to an end, be it a failure, all that was written at any point of
its run is kept. -/
theorem steps_independent {s : Submission} {a fresh : Assembly} (h : scriptCompiler s = .ok a)
    (hfresh : scriptCompiler s = .ok fresh) (sts : List Step) :
    (∀ out, (a.steps out sts).length = sts.length) ∧
    (∀ (written : String) i st, sts[i]? = some st → (a.steps written sts)[i]? =
      some ((fresh.step "" st).1, written ++ fresh.writtenBy (sts.take (i + 1)))) ∧
    (∀ (out : Writer) i, (a.steps out sts)[i]? = ((fresh.alone out.replies sts)[i]?).map fun done ↦
      (done.1, out.output ++ String.join (((fresh.alone out.replies sts).take (i + 1)).map Prod.snd))) ∧
    (∀ st out, (a.step out st).1.isRefused = true → (a.step out st).2 = out) ∧
    ∃ p, Script.bind s.unit s.references = .ok p ∧
      ∀ st out, (a.step out st).1.isRefused = false → (a.step out st).1.isUnfinished = false →
        ∀ ci mi c, p.findClass? st.typeName = some ci → p.classes[ci]? = some c →
          c.findMethod? st.method = some mi →
          ∀ pt, Reaches p ci mi (.object st.instanceOf) [] ⟨out, 0⟩ pt →
            ∃ text, (a.step out st).2.output = pt.machine.output ++ text := by
  obtain rfl : a = fresh := Except.ok.inj (h.symm.trans hfresh)
  rw [scriptCompiler] at h
  cases hbind : Script.bind s.unit s.references with
  | error diagnostics =>
    rw [hbind] at h
    cases h
  | ok p =>
    rw [hbind] at h
    cases h
    have hsteady := Assembly.steady_ofProgram s.assemblyName p
    refine ⟨fun out ↦ Assembly.length_steps _ out _, fun written i st hst ↦ ?_,
      fun out i ↦ hsteady.getElem?_steps out.output out.replies sts i, fun st out hrefused ↦ ?_,
      p, rfl, ?_⟩
    · rw [hsteady.getElem?_steps, hsteady.alone_nil, List.getElem?_map, hst, ← List.map_take,
        List.map_map]
      rfl
    · cases hchosen : (Assembly.ofProgram s.assemblyName p).chosen? st with
      | none =>
        obtain ⟨result, -, hstep⟩ := Assembly.step_of_none hchosen
        rw [hstep out]
      | some e =>
        obtain ⟨wrap, hwrap, -, hstep⟩ := Assembly.step_of_chosen hchosen
        rw [hstep out, hwrap] at hrefused
        cases hrefused
    · intro st out hrun hend ci mi c hci hc hmi pt hpt
      exact Assembly.step_keeps hrun hend hci hc hmi hpt

/-- A class with a method that writes and fails, one that writes and returns, and one that cannot be
entered; and a class whose instances the second method can be run on. -/
def printerUnit : CompileUnit :=
  ⟨[⟨"Shop", ["System"], [⟨"Printer", .everyone, true,
    [⟨"Jam", .everyone, true, "void", [], "Console.Write(\"a\"); throw \"jam\";"⟩,
      ⟨"Print", .everyone, true, "int", [], "Console.Write(\"b\"); return 1;"⟩,
      ⟨"Scale", .everyone, true, "int", [⟨"int", "x", none⟩], "return x;"⟩]⟩,
    ⟨"Desk", .everyone, true, []⟩]⟩]⟩

/-- A failure, a refusal, and a method that is run on an instance of another class. -/
def printerSteps : List Step :=
  [.enter (.ofEntry "Shop.Printer" "Jam"), .enter (.ofEntry "Shop.Printer" "Scale"),
    .invoke "Shop.Printer" "Print" "Shop.Desk"]

/-- What the printer writes before it fails is there at the end, in front of what it writes after a
step that is refused.  If the writer fails once, that is the first step's failure, and the last step
writes as before. -/
theorem printerUnit_steps : ∃ a,
    scriptCompiler ⟨printerUnit, ["System"], "Shop"⟩ = .ok a ∧
    ((a.steps "> " printerSteps)[2]?).map Prod.snd = some "> ab" ∧
    ((a.steps ⟨"> ", [.fails "" "broken pipe"]⟩ printerSteps)[2]?).map Prod.snd = some "> b" := by
  have hbind : Script.bind printerUnit ["System"] =
      .ok (Script.bindAll printerUnit ["System"]).value := Script.bind_of_clean (by decide +kernel)
  have h : scriptCompiler ⟨printerUnit, ["System"], "Shop"⟩ =
      .ok (.ofProgram "Shop" (Script.bindAll printerUnit ["System"]).value) := by
    rw [scriptCompiler, hbind]
    rfl
  obtain ⟨-, hsteps, hanswered, -⟩ := steps_independent h h printerSteps
  refine ⟨_, h, ?_, ?_⟩
  · rw [hsteps "> " 2 _ rfl]
    decide +kernel
  · rw [hanswered]
    decide +kernel

end Dossier
