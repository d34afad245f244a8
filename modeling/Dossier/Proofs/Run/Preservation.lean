import Dossier.Proofs.Run.Points

/-!
# Types are kept at run time

What a run reads from a slot, and what a call returns.

`reads_and_results_typed` joins three facts.  A slot is read only after its local has been given a
value, as a parameter or by its own declaration; a local with a type then has a value of that type;
and a method returns a value of the type of its result.  The first two are the invariant at the
points of a run, together with the numbering of slots, by which a slot belongs to one local of the
method.
-/

set_option autoImplicit false

namespace Dossier.Script

/-- The code reads the slot: it is its value, or an assignment that uses the old one. -/
def Code.Reads (i : Nat) : Code → Prop
  | .expr e => e = .slot i
  | .stmt (.assign j _ op _) => j = i ∧ op.isSome
  | _ => False

variable {p : BoundProgram}

/-! ## Types of locals -/

mutual

theorem type_ne_void_of_declarations {size : Nat} : (stmt : BoundStmt) → {known : List Local} →
    stmt.WellFormed p size known → ∀ l ∈ stmt.declarations, l.type ≠ some .void
  | .declare i type _, _, h => by
    cases h with
    | declare _ _ htype _ =>
      intro l hl
      obtain rfl := List.mem_singleton.1 hl
      exact htype
  | .branch _ body otherwise, _, h => by
    cases h with
    | branch _ hbody hotherwise =>
      intro l hl
      rcases List.mem_append.1 hl with hl | hl
      · exact type_ne_void_of_declarationsIn body hbody l hl
      · exact type_ne_void_of_declarationsIn otherwise hotherwise l hl
  | .loop _ body, _, h => by
    cases h with
    | loop _ hbody => exact type_ne_void_of_declarationsIn body hbody
  | .block body, _, h => by
    cases h with
    | block hbody => exact type_ne_void_of_declarationsIn body hbody
  | .assign _ _ _ _, _, _ => by simp [BoundStmt.declarations]
  | .giveBack _, _, _ => by simp [BoundStmt.declarations]
  | .throw _, _, _ => by simp [BoundStmt.declarations]
  | .expr _, _, _ => by simp [BoundStmt.declarations]

theorem type_ne_void_of_declarationsIn {size : Nat} : (stmts : List BoundStmt) →
    {known : List Local} → AllWellFormed p size known stmts →
    ∀ l ∈ declarationsIn stmts, l.type ≠ some .void
  | [], _, _ => by simp [declarationsIn]
  | s :: rest, _, h => by
    cases h with
    | cons hfirst hrest =>
      intro l hl
      rcases List.mem_append.1 hl with hl | hl
      · exact type_ne_void_of_declarations s hfirst l hl
      · exact type_ne_void_of_declarationsIn rest hrest l hl

end

theorem type_of_mem_paramLocals {first : Nat} {ps : List BoundParam} {l : Local}
    (h : l ∈ paramLocals first ps) : ∃ q ∈ ps, l.type = some q.type := by
  induction ps generalizing first with
  | nil => simp [paramLocals] at h
  | cons q qs ih =>
    rcases List.mem_cons.1 h with rfl | h
    · exact ⟨q, List.mem_cons_self .., rfl⟩
    · obtain ⟨r, hr, htype⟩ := ih h
      exact ⟨r, List.mem_cons_of_mem _ hr, htype⟩

/-- No local of a well-formed method is declared void. -/
theorem BoundMethod.WellFormed.type_ne_void {m : BoundMethod} (h : m.WellFormed p) {l : Local}
    (hl : l ∈ m.locals) : l.type ≠ some .void := by
  rcases List.mem_append.1 hl with hl | hl
  · obtain ⟨q, hq, htype⟩ := type_of_mem_paramLocals hl
    rw [htype]
    exact fun hv ↦ h.params q hq (Option.some.inj hv)
  · exact type_ne_void_of_declarationsIn m.body h.body l hl

/-! ## Reads -/

/-- What a good point reads is a local in scope. -/
theorem Point.Good.known_of_reads {pt : Point} (h : pt.Good p) {i : Nat} (hr : pt.code.Reads i) :
    ∃ l ∈ pt.known, l.slot = i := by
  have hwf := h.code
  cases hc : pt.code with
  | expr e =>
    rw [hc] at hr hwf
    obtain rfl : e = .slot i := hr
    cases hwf with
    | slot hl _ => exact ⟨_, hl, rfl⟩
  | stmt s =>
    rw [hc] at hr hwf
    cases s with
    | assign j type op value =>
      obtain ⟨rfl, -⟩ := hr
      cases hwf with
      | assign hl _ _ => exact ⟨_, hl, rfl⟩
    | _ => exact hr.elim
  | _ =>
    rw [hc] at hr
    exact hr.elim

/-- **What is read and what is returned has its type.**  In a run of an accepted program, the slot
that a point reads is that of exactly one local of the method; this local has been given a value,
and if it was declared with a type, which is never void, the value is of that type.  A call that
returns, returns a value of the type of its result: void exactly if that is void. -/
theorem reads_and_results_typed {u : CompileUnit} {refs : List String} (h : bind u refs = .ok p) :
    (∀ ci mi self args w pt, Reaches p ci mi self args w pt → ∀ i, pt.code.Reads i →
      ∃ l ∈ pt.known, l.slot = i ∧ l ∈ pt.activation.method.locals ∧
        (∀ l' ∈ pt.activation.method.locals, l'.slot = i → l' = l) ∧
        ∃ v, pt.slots[i]? = some v ∧ ∀ t, l.type = some t → t ≠ .void ∧ t.Holds v) ∧
    ∀ ci mi m self args fuel w v w', p.method? ci mi = some m →
      callMethod fuel p ci mi self args w = .ok v w' →
      m.returns.Holds v ∧ (v = .void ↔ m.returns = .void) := by
  have hp := wellFormed_of_bind h
  refine ⟨fun ci mi self args w pt hpt i hr ↦ ?_, fun ci mi m self args fuel w v w' hm hcall ↦ ?_⟩
  · have hgood := good_of_reaches hp hpt
    obtain ⟨l, hl, rfl⟩ := hgood.known_of_reads hr
    obtain ⟨ci', mi', hm⟩ := hgood.method
    have hwf := hp ci' mi' _ hm
    have hlocal := hgood.known l hl
    obtain ⟨v, hv, hadmits⟩ := hgood.frame.holds l hl
    refine ⟨l, hl, rfl, hlocal, fun l' hl' hs ↦ hwf.slots.eq_of_slot hl' hlocal hs, v, hv, ?_⟩
    exact fun t ht ↦ ⟨fun hvoid ↦ hwf.type_ne_void hlocal (hvoid ▸ ht), hadmits t ht⟩
  · have hv := ((sound hp fuel).callMethod self args hm).ok hcall
    exact ⟨hv, ValueType.eq_void_iff_of_holds hv⟩

/-- In the small unit, the sum of two and the default is a whole number. -/
theorem smallUnit_result_typed :
    ∃ v w, callMethod 20 (bindAll smallUnit []).value 0 0 .null [.int 2] .fresh = .ok v w ∧
      ValueType.int.Holds v := by
  have hm : ((bindAll smallUnit []).value.method? 0 0).map (fun m ↦ m.returns) = some .int := by
    decide +kernel
  rw [Option.map_eq_some_iff] at hm
  obtain ⟨m, hm, hreturns⟩ := hm
  have hends : ((callMethod 20 (bindAll smallUnit []).value 0 0 .null [.int 2]).run' .fresh).isSome :=
    by decide +kernel
  delta EStateM.run' EStateM.run at hends
  cases hrun : callMethod 20 (bindAll smallUnit []).value 0 0 .null [.int 2] .fresh with
  | error halt w =>
    rw [hrun] at hends
    cases hends
  | ok v w =>
    have htyped := (reads_and_results_typed bind_smallUnit).2 0 0 m _ _ _ _ v w hm hrun
    exact ⟨v, w, rfl, hreturns ▸ htyped.1⟩

end Dossier.Script
