import Dossier.Proofs.Binding.Arguments
import Dossier.Proofs.Run.Frames

/-!
# Arguments that are left out

A call that leaves out arguments with a default does what it does if the texts of the defaults are
written as its last arguments.

* `AlwaysGives b v`: wherever the code is evaluated, it has the value, from some fuel on.  The code
  of an expression with a constant always gives the constant (`alwaysGives_bindExpr`), so that the
  value which the binder folds is the value that a run has.
* `evaluateArgs_append`: arguments of this kind at the end add their values to those of the others.
* `parameterSlots_append`: a parameter takes its default as it takes the constant behind it.  The
  default has been sent to the type when it was bound and is sent there again by every call, the
  argument once; a value of the type stays as it is.
* `callMethod_append` is both at a call, and `omitted_eq_written` is the result for accepted units.
-/

set_option autoImplicit false

namespace Dossier.Script

/-! ## Code with a constant value -/

/-- Wherever the code is evaluated, it has the value, if there is enough fuel. -/
def BoundExpr.AlwaysGives (b : BoundExpr) (v : Value) : Prop :=
  ∃ n, ∀ fuel, n ≤ fuel → ∀ a slots, evaluate fuel a slots b = pure v

theorem alwaysGives_const (v : Value) : (BoundExpr.const v).AlwaysGives v := by
  refine ⟨1, fun fuel hfuel a slots ↦ ?_⟩
  obtain ⟨fuel, rfl⟩ := Nat.exists_eq_add_of_le' hfuel
  rfl

theorem BoundExpr.AlwaysGives.neg {b : BoundExpr} {v v' : Value} (h : b.AlwaysGives v)
    (hneg : v.negated? = some v') : (BoundExpr.unary .neg b).AlwaysGives v' := by
  obtain ⟨n, h⟩ := h
  refine ⟨n + 1, fun fuel hfuel a slots ↦ ?_⟩
  obtain ⟨fuel, rfl⟩ := Nat.exists_eq_add_of_le' (Nat.one_le_of_lt hfuel)
  rw [evaluate, h fuel (Nat.le_of_succ_le_succ hfuel), pure_bind,
    UnaryOp.apply_neg_of_negated hneg]
  rfl

/-- **What is folded is what a run gives.** -/
theorem alwaysGives_bindExpr (s : Surroundings) (scopes : Scopes) {e : Expr} {v : Value}
    (h : e.Folds v) : (s.bindExpr scopes e).value.AlwaysGives v := by
  induction h with
  | literal l span =>
    rw [Surroundings.bindExpr]
    exact alwaysGives_const l.value
  | neg span _ hneg ih =>
    rw [Surroundings.bindExpr]
    exact ih.neg hneg

/-! ## Arguments -/

/-- Arguments that are folded into constants have these values. -/
theorem exists_evaluateArgs_eq (s : Surroundings) (scopes : Scopes) {es : List Expr}
    {vs : List Value} (h : List.Forall₂ Expr.Folds es vs) :
    ∃ n, ∀ fuel, n ≤ fuel → ∀ a slots,
      evaluateArgs fuel a slots (s.bindArgs scopes es).value = pure vs := by
  induction h with
  | nil =>
    refine ⟨1, fun fuel hfuel a slots ↦ ?_⟩
    obtain ⟨fuel, rfl⟩ := Nat.exists_eq_add_of_le' hfuel
    rfl
  | @cons e v es vs he _ ih =>
    obtain ⟨n, hn⟩ := alwaysGives_bindExpr s scopes he
    obtain ⟨k, hk⟩ := ih
    refine ⟨max n k + 1, fun fuel hfuel a slots ↦ ?_⟩
    obtain ⟨fuel, rfl⟩ := Nat.exists_eq_add_of_le' (Nat.one_le_of_lt hfuel)
    have hmax := Nat.max_le.1 (Nat.le_of_succ_le_succ hfuel)
    have hcons : (s.bindArgs scopes (e :: es)).value =
        (s.bindExpr scopes e).value :: (s.bindArgs scopes es).value := rfl
    rw [hcons, evaluateArgs, hn fuel hmax.1, pure_bind, he.isVoid,
      if_neg Bool.false_ne_true, hk fuel hmax.2]
    rfl

/-- There are as many values as arguments. -/
theorem ends_length_evaluateArgs (fuel : Nat) (a : Activation) (slots : Slots)
    (es : List BoundExpr) :
    Ends (evaluateArgs fuel a slots es) (fun vs ↦ vs.length = es.length) fun _ ↦ True := by
  have hany {α : Type} (x : Run α) : Ends x (fun _ ↦ True) fun _ ↦ True := by
    intro w
    cases x w <;> trivial
  induction es generalizing fuel with
  | nil =>
    cases fuel with
    | zero => exact .throw trivial
    | succ fuel => exact .pure rfl
  | cons e es ih =>
    cases fuel with
    | zero => exact .throw trivial
    | succ fuel =>
      refine (hany _).bind fun v _ ↦ ?_
      split
      · exact .throw trivial
      · exact (ih fuel).bind fun vs hvs ↦ .pure (congrArg Nat.succ hvs)

/-- **Constant arguments at the end** add their values to those of the arguments before them. -/
theorem evaluateArgs_append {a : Activation} {slots : Slots} {more : List BoundExpr}
    {vs : List Value} {n : Nat}
    (h : ∀ fuel, n ≤ fuel → evaluateArgs fuel a slots more = pure vs) (es : List BoundExpr)
    {fuel : Nat} (hfuel : n + es.length < fuel) :
    evaluateArgs fuel a slots (es ++ more) = (· ++ vs) <$> evaluateArgs fuel a slots es := by
  obtain ⟨fuel, rfl⟩ := Nat.exists_eq_add_of_le' (Nat.one_le_of_lt hfuel)
  induction es generalizing fuel with
  | nil =>
    rw [List.nil_append, h _ (Nat.le_of_lt hfuel)]
    rfl
  | cons e es ih =>
    have hrest : n + es.length < fuel := Nat.lt_of_succ_lt_succ hfuel
    obtain ⟨fuel, rfl⟩ := Nat.exists_eq_add_of_le' (Nat.one_le_of_lt hrest)
    rw [List.cons_append, evaluateArgs, evaluateArgs, map_bind]
    congr 1
    funext v
    cases v.isVoid with
    | true => rfl
    | false =>
      rw [if_neg Bool.false_ne_true, if_neg Bool.false_ne_true, ih fuel hrest, map_bind,
        bind_map_left]
      rfl

/-! ## Parameters -/

/-- **A parameter takes its default as it takes the constant behind it.** -/
theorem Activation.parameterSlots_append (a : Activation) {ps : List BoundParam} {vs : List Value}
    (us : List Value) {k : Nat}
    (h : List.Forall₂ BoundParam.DefaultsTo ((ps.drop us.length).take k) vs) :
    a.parameterSlots ps (us ++ vs) = a.parameterSlots ps us := by
  induction ps generalizing us vs k with
  | nil => rfl
  | cons q ps ih =>
    cases us with
    | cons u us =>
      have hrest := ih us h
      simp only [List.cons_append, parameterSlots, List.drop_one, List.tail_cons, hrest]
    | nil =>
      cases k with
      | zero =>
        cases h
        rfl
      | succ k =>
        cases h with
        | @cons _ v _ vs hq hrest =>
          obtain ⟨v', hv', hdefault⟩ := hq
          have hagain : q.type.coerce v' = .ok v' :=
            ValueType.coerce_of_holds (ValueType.holds_of_coerce hv')
          have hrest := ih [] hrest
          rw [List.nil_append] at hrest
          simp only [List.nil_append, parameterSlots, coerce, hdefault, hv', hagain, pure_bind,
            List.drop_one, List.tail_cons, List.tail_nil, hrest]

theorem runMethod_append (a : Activation) {us vs : List Value} {k : Nat}
    (h : List.Forall₂ BoundParam.DefaultsTo ((a.method.params.drop us.length).take k) vs)
    (fuel : Nat) : runMethod fuel a (us ++ vs) = runMethod fuel a us := by
  cases fuel with
  | zero => rfl
  | succ fuel =>
    rw [runMethod, runMethod, Activation.slots, Activation.slots, a.parameterSlots_append us h]

/-- **A call with the constants behind its defaults** is the call without them. -/
theorem callMethod_append {p : BoundProgram} {ci mi : Nat} {m : BoundMethod}
    (hm : p.method? ci mi = some m) {us vs : List Value} {k : Nat}
    (h : List.Forall₂ BoundParam.DefaultsTo ((m.params.drop us.length).take k) vs) (fuel : Nat)
    (self : Value) : callMethod fuel p ci mi self (us ++ vs) = callMethod fuel p ci mi self us := by
  cases fuel with
  | zero => rfl
  | succ fuel =>
    funext w
    simp only [callMethod, hm, runMethod_append ⟨p, m, if m.isStatic then .null else self⟩ h]

/-! ## Calls -/

/-- In the program the two run alike wherever they are evaluated: on every machine they have the
same value or failure and write the same, if there is enough fuel. -/
def BoundExpr.RunsAs (b b' : BoundExpr) (p : BoundProgram) : Prop :=
  ∃ n, ∀ fuel, n ≤ fuel → ∀ a slots, a.program = p →
    evaluate fuel a slots b = evaluate fuel a slots b'

/-- **A call with constants written behind its arguments** runs as the call without them, if they
are the constants behind the defaults that it leaves out. -/
theorem runsAs_call_append {p : BoundProgram} {ci mi : Nat} {m : BoundMethod}
    (hm : p.method? ci mi = some m) (s : Surroundings) (scopes : Scopes) {es : List Expr}
    {vs : List Value} (hvs : List.Forall₂ Expr.Folds es vs)
    {bound : List BoundExpr} {k : Nat}
    (h : List.Forall₂ BoundParam.DefaultsTo ((m.params.drop bound.length).take k) vs) :
    (BoundExpr.call ci mi bound).RunsAs
      (.call ci mi (bound ++ (s.bindArgs scopes es).value)) p := by
  obtain ⟨n, hn⟩ := exists_evaluateArgs_eq s scopes hvs
  refine ⟨n + bound.length + 2, fun fuel hfuel a slots hp ↦ ?_⟩
  obtain ⟨fuel, rfl⟩ := Nat.exists_eq_add_of_le' (Nat.one_le_of_lt hfuel)
  have happend := evaluateArgs_append (fun fuel hfuel ↦ hn fuel hfuel a slots) bound
    (Nat.lt_of_succ_le (Nat.le_of_succ_le_succ hfuel))
  rw [evaluate, evaluate, happend, bind_map_left]
  refine (ends_length_evaluateArgs fuel a slots bound).bind_congr fun us hus ↦ ?_
  subst hp
  exact (callMethod_append hm (hus ▸ h) fuel a.self).symm

section Written

variable {u : CompileUnit} {ci mi ci' mi' : Nat} {caller callee : Site} {args es : List Expr}
  {vs : List Value}

/-- A call can be bound with the constants behind the defaults that it leaves out if it can be bound
without them. -/
theorem binds_written_iff (hcaller : site? u ci mi = some caller)
    (hcallee : site? u ci' mi' = some callee)
    (hvs : List.Forall₂ Expr.Folds es vs)
    (hbs : List.Forall₂ BoundParam.DefaultsTo (callee.bound.params.drop args.length) vs)
    (scopes : Scopes) (named : Expr) (span : Text.Span) (k : Nat) (bound : List BoundExpr) :
    caller.surroundings.Binds scopes (.call named args span) (.call ci' mi' bound) ↔
      caller.surroundings.Binds scopes (.call named (args ++ es.take k) span)
        (.call ci' mi' (bound ++ (caller.surroundings.bindArgs scopes (es.take k)).value)) := by
  have hfolds := List.forall₂_take k hvs
  refine Surroundings.binds_call_append_iff
    (caller.surroundings.notes_bindArgs_of_folds scopes hfolds) ?_
  have hlength : (es.take k).length = ((callee.bound.params.drop args.length).take k).length :=
    hfolds.length_eq.trans (List.forall₂_take k hbs).length_eq.symm
  obtain ⟨c, hc, hm⟩ := exists_signature_of_site? hcallee
  rw [← surroundings_of_site? hcaller] at hc
  rw [hlength]
  exact Surroundings.admits_written_iff hc hm (isSome_of_defaultsTo hbs) k

/-- A call that is bound runs as it does with the constants behind the defaults that it leaves
out. -/
theorem runsAs_written {refs : List String} {p : BoundProgram} (h : bind u refs = .ok p)
    (hcallee : site? u ci' mi' = some callee)
    (hvs : List.Forall₂ Expr.Folds es vs)
    (hbs : List.Forall₂ BoundParam.DefaultsTo (callee.bound.params.drop args.length) vs)
    {scopes : Scopes} {named : Expr} {span : Text.Span} {bound : List BoundExpr}
    (hbinds : caller.surroundings.Binds scopes (.call named args span) (.call ci' mi' bound))
    (k : Nat) :
    (BoundExpr.call ci' mi' bound).RunsAs
      (.call ci' mi' (bound ++ (caller.surroundings.bindArgs scopes (es.take k)).value)) p := by
  have hm : p.method? ci' mi' = some callee.bound := by
    rw [method?_of_bind h, hcallee, Option.map_some]
  rw [← hbinds.length_eq] at hbs
  exact runsAs_call_append hm caller.surroundings scopes (List.forall₂_take k hvs)
    (List.forall₂_take k hbs)

end Written

/-- **An argument that is left out is its default, written out.**  Take a call in a unit that is
accepted, which leaves out arguments with a default only, and write the texts of the defaults behind
its arguments, all of them or the first `k`.  It can be bound as before, calls what it called
before, and runs as before.

The values that are folded into defaults are those that a run has for the same expressions. -/
theorem omitted_eq_written :
    (∀ {u : CompileUnit} {refs : List String} {p : BoundProgram}, bind u refs = .ok p →
      ∀ {ci mi : Nat} {caller : Site}, site? u ci mi = some caller →
      ∀ {ci' mi' : Nat} {callee : Site}, site? u ci' mi' = some callee →
      ∀ (scopes : Scopes) (named : Expr) (args : List Expr) (span : Text.Span) (k : Nat),
        (∀ q ∈ callee.method.params.drop args.length, q.default?.isSome) →
        ∃ written, List.Forall₂ Parameter.Writes
            ((callee.method.params.drop args.length).take k) written ∧
          ∃ more, ∀ bound,
            (caller.surroundings.Binds scopes (.call named args span) (.call ci' mi' bound) ↔
              caller.surroundings.Binds scopes (.call named (args ++ written) span)
                (.call ci' mi' (bound ++ more))) ∧
            (caller.surroundings.Binds scopes (.call named args span) (.call ci' mi' bound) →
              (BoundExpr.call ci' mi' bound).RunsAs (.call ci' mi' (bound ++ more)) p)) ∧
    ∀ {e : Expr}, Signed e → ∃ v, e.constant? = some v ∧
      ∀ (s : Surroundings) (scopes : Scopes), ∃ b, s.Binds scopes e b ∧ b.AlwaysGives v := by
  constructor
  · intro u refs p h ci mi caller hcaller ci' mi' callee hcallee scopes named args span k hdefaults
    have hkeeps := (accepted_of_bind h hcallee).keeps hcallee
    obtain ⟨es, vs, hes, hvs, hbs⟩ :=
      exists_written (List.forall₂_drop args.length hkeeps) hdefaults
    exact ⟨es.take k, List.forall₂_take k hes,
      (caller.surroundings.bindArgs scopes (es.take k)).value, fun bound ↦
        ⟨binds_written_iff hcaller hcallee hvs hbs scopes named span k bound,
          fun hbinds ↦ runsAs_written h hcallee hvs hbs hbinds k⟩⟩
  · intro e he
    obtain ⟨v, hv, -⟩ := he.exists_constant
    have hfolds := Expr.folds_of_constant hv
    exact ⟨v, hv, fun s scopes ↦ ⟨(s.bindExpr scopes e).value,
      Surroundings.binds_iff.2 ⟨rfl, s.notes_bindExpr_of_folds scopes hfolds⟩,
      alwaysGives_bindExpr s scopes hfolds⟩⟩

/-- A class with a method that leaves out a number, with two minus signs in front of it and still to
be sent to its type, and a text. -/
def tariffUnit : CompileUnit :=
  ⟨[⟨"Shop", ["System"], [⟨"Tariff", .everyone, false,
    [⟨"Price", .owner, false, "double",
      [⟨"int", "count", none⟩, ⟨"double", "each", some "--2"⟩, ⟨"string", "note", some "null"⟩],
      "return count * each;"⟩,
      ⟨"Main", .everyone, false, "double", [], "return Price(3);"⟩]⟩]⟩]⟩

theorem bind_tariffUnit : bind tariffUnit [] = .ok (bindAll tariffUnit []).value :=
  bind_of_clean (by decide +kernel)

/-- A call of the method, for three. -/
def priceOf (args : List Expr) : Expr :=
  .call (.name ⟨"Price", ⟨7, 12⟩⟩) (.literal (.int 3) ⟨13, 14⟩ :: args) ⟨7, 15⟩

/-- The number of the first default. -/
def eachPrice : Expr := .unary .neg (.unary .neg (.literal (.int 2) ⟨2, 3⟩) ⟨1, 3⟩) ⟨0, 3⟩

/-- The price for three can be written with both defaults, and comes out as it does without them;
and the first default is what a run makes of its minus signs. -/
theorem priceOf_written : ∃ caller written more v,
    bind tariffUnit [] = .ok (bindAll tariffUnit []).value ∧
    site? tariffUnit 0 1 = some caller ∧
    caller.surroundings.Binds [[]] (priceOf []) (.call 0 0 [.const (.int 3)]) ∧
    written.length = 2 ∧
    caller.surroundings.Binds [[]] (priceOf written) (.call 0 0 (.const (.int 3) :: more)) ∧
    (BoundExpr.call 0 0 [.const (.int 3)]).RunsAs (.call 0 0 (.const (.int 3) :: more))
      (bindAll tariffUnit []).value ∧
    Signed eachPrice ∧ eachPrice.constant? = some v ∧
    ∃ b, caller.surroundings.Binds [[]] eachPrice b ∧ b.AlwaysGives v := by
  obtain ⟨caller, hcaller, hbinds⟩ : ∃ caller, site? tariffUnit 0 1 = some caller ∧
      caller.surroundings.Binds [[]] (priceOf []) (.call 0 0 [.const (.int 3)]) := ⟨_, rfl, rfl⟩
  obtain ⟨callee, hcallee, hparams⟩ : ∃ callee, site? tariffUnit 0 0 = some callee ∧
      callee.method.params = [⟨"int", "count", none⟩, ⟨"double", "each", some "--2"⟩,
        ⟨"string", "note", some "null"⟩] := ⟨_, rfl, rfl⟩
  have hdefaults : ∀ q ∈ callee.method.params.drop 1, q.default?.isSome := by
    rw [hparams]
    decide
  have hsigned : Signed eachPrice := .neg _ (.neg _ (.int 2 _))
  obtain ⟨hwritten, hconstant⟩ := omitted_eq_written
  obtain ⟨written, hwrites, more, h⟩ := hwritten bind_tariffUnit hcaller hcallee [[]]
    (.name ⟨"Price", ⟨7, 12⟩⟩) [.literal (.int 3) ⟨13, 14⟩] ⟨7, 15⟩ 2 hdefaults
  obtain ⟨hiff, hruns⟩ := h [.const (.int 3)]
  obtain ⟨v, hv, hvalue⟩ := hconstant hsigned
  rw [hparams] at hwrites
  exact ⟨caller, written, more, v, bind_tariffUnit, hcaller, hbinds, hwrites.length_eq.symm,
    hiff.1 hbinds, hruns hbinds, hsigned, hv, hvalue caller.surroundings [[]]⟩

end Dossier.Script
