import Dossier.Proofs.Binding.Accepted
import Dossier.Script.Arithmetic
import Mathlib.Data.List.Forall2

/-!
# Constants

A default is bound without being run: `Expr.constant?` folds the minus signs in front of a number.
As an argument the same expression is bound as code.  The two agree.

* `Expr.Folds` is the folding as a relation, to do induction on, and
  `Surroundings.notes_bindExpr_of_folds` says that what is folded is bound without a note.
* `Signed` is a number with any number of minus signs in front of it, and `Signed.exists_constant`
  says that all of these have a constant.
* `BoundParam.Keeps` ties a parameter to its declaration: its default is the constant of the
  expression that was written, sent to the type of the parameter.  `forall₂_keeps_bindParams` says
  that binding keeps all parameters, and `exists_written` gives the expressions.
-/

set_option autoImplicit false

namespace Dossier

/-- The default of the parameter is the text of the expression. -/
def Parameter.Writes (q : Parameter) (e : Script.Expr) : Prop :=
  ∃ text, q.default? = some text ∧ Script.parseExpr (Script.tokenize text) = .ok e

namespace Script

/-! ## Values -/

/-- **The folded minus is the operator**, where there is one. -/
theorem UnaryOp.apply_neg_of_negated {v v' : Value} (h : v.negated? = some v') :
    UnaryOp.neg.apply v = .ok v' := by
  cases v with
  | int n | float x =>
    cases h
    rfl
  | _ => cases h

theorem Value.isVoid_of_negated {v v' : Value} (h : v.negated? = some v') : v'.isVoid = false := by
  cases v with
  | int n | float x =>
    cases h
    rfl
  | _ => cases h

/-- A number can be given the other sign again. -/
theorem Value.isSome_negated_of_negated {v v' : Value} (h : v.negated? = some v') :
    v'.negated?.isSome := by
  cases v with
  | int n | float x =>
    cases h
    rfl
  | _ => cases h

/-! ## Expressions with a constant -/

/-- A number with minus signs in front of it. -/
inductive Signed : Expr → Prop
  | int (n : Int64) (span : Text.Span) : Signed (.literal (.int n) span)
  | float (x : Float) (span : Text.Span) : Signed (.literal (.float x) span)
  | neg {e : Expr} (span : Text.Span) (h : Signed e) : Signed (.unary .neg e span)

namespace Expr

/-- The expression is a literal, or one with a minus sign in front of it that is folded into its
value. -/
inductive Folds : Expr → Value → Prop
  | literal (l : Literal) (span : Text.Span) : Folds (.literal l span) l.value
  | neg {e : Expr} {v v' : Value} (span : Text.Span) :
    Folds e v → v.negated? = some v' → Folds (.unary .neg e span) v'

theorem folds_of_constant {e : Expr} {v : Value} (h : e.constant? = some v) : e.Folds v := by
  induction e using constant?.induct generalizing v with
  | case1 l span =>
    cases h
    exact .literal l span
  | case2 operand span ih =>
    obtain ⟨v', hv', hneg⟩ := Option.bind_eq_some_iff.1 h
    exact .neg span (ih hv') hneg
  | case3 e hliteral hneg =>
    unfold constant? at h
    split at h
    · exact absurd rfl (hliteral _ _)
    · exact absurd rfl (hneg _ _)
    · cases h

theorem Folds.isVoid {e : Expr} {v : Value} (h : e.Folds v) : v.isVoid = false := by
  cases h with
  | literal l span => cases l <;> rfl
  | neg span _ hneg => exact Value.isVoid_of_negated hneg

end Expr

/-- **Every signed number has a constant**, which is a number. -/
theorem Signed.exists_constant {e : Expr} (h : Signed e) :
    ∃ v, e.constant? = some v ∧ v.negated?.isSome := by
  induction h with
  | int n => exact ⟨.int n, rfl, rfl⟩
  | float x => exact ⟨.float x, rfl, rfl⟩
  | neg span h ih =>
    obtain ⟨v, hv, hneg⟩ := ih
    obtain ⟨v', hv'⟩ := Option.isSome_iff_exists.1 hneg
    refine ⟨v', ?_, Value.isSome_negated_of_negated hv'⟩
    rw [Expr.constant?, hv, Option.bind_some, hv']

namespace Surroundings

/-- **What is folded is bound without a note**, wherever it stands. -/
theorem notes_bindExpr_of_folds (s : Surroundings) (scopes : Scopes) {e : Expr} {v : Value}
    (h : e.Folds v) : (s.bindExpr scopes e).notes = [] := by
  induction h with
  | literal l span => rw [bindExpr, Noted.notes_pure]
  | neg span _ hneg ih => rw [bindExpr, Noted.notes_bind, ih, Noted.notes_pure, List.append_nil]

end Surroundings

/-! ## Defaults -/

theorem exists_folds_of_defaultValue {text : String} {v : Value}
    (h : defaultValue? text = some v) : ∃ e, parseExpr (tokenize text) = .ok e ∧ e.Folds v := by
  unfold defaultValue? at h
  split at h
  · rename_i e he
    exact ⟨e, he, Expr.folds_of_constant h⟩
  · cases h

theorem bindDefault_clean {parameter method text : String} {type : ValueType}
    (h : (bindDefault parameter method type text).notes = []) :
    ∃ v v', defaultValue? text = some v ∧ type.coerce v = .ok v' ∧
      (bindDefault parameter method type text).value = some v' := by
  rw [bindDefault] at h ⊢
  cases hv : defaultValue? text with
  | none =>
    simp only [hv] at h
    exact absurd h (by simp)
  | some v =>
    simp only [hv] at h ⊢
    cases hc : type.coerce v with
    | error error =>
      simp only [hc] at h
      exact absurd h (by simp)
    | ok v' => exact ⟨v, v', rfl, hc, rfl⟩

/-- The default of the parameter is the value, sent to the type of the parameter. -/
def BoundParam.DefaultsTo (b : BoundParam) (v : Value) : Prop :=
  ∃ v', b.type.coerce v = .ok v' ∧ b.default? = some v'

/-- The parameter keeps the default of its declaration: it is the constant that was written. -/
def BoundParam.Keeps (b : BoundParam) (q : Parameter) : Prop :=
  q.default?.isSome → ∃ e v, q.Writes e ∧ e.Folds v ∧ b.DefaultsTo v

theorem keeps_bindParam {method : String} {q : Parameter} (h : (bindParam method q).notes = []) :
    (bindParam method q).value.Keeps q := by
  intro hq
  obtain ⟨text, hq⟩ := Option.isSome_iff_exists.1 hq
  simp only [bindParam, hq, Noted.notes_bind, Noted.notes_pure, List.append_eq_nil_iff] at h
  obtain ⟨v, v', hv, hc, hvalue⟩ := bindDefault_clean h.2.2.1
  obtain ⟨e, he, hfolds⟩ := exists_folds_of_defaultValue hv
  refine ⟨e, v, ⟨text, hq, he⟩, hfolds, v', ?_⟩
  simp only [bindParam, hq, Noted.value_bind, Noted.value_pure]
  exact ⟨hc, hvalue⟩

/-- **Binding keeps the defaults of all parameters.** -/
theorem forall₂_keeps_bindParams {method : String} {before : List String} {qs : List Parameter}
    (h : (bindParams method before qs).notes = []) :
    List.Forall₂ BoundParam.Keeps (bindParams method before qs).value qs := by
  induction qs generalizing before with
  | nil => exact .nil
  | cons q qs ih =>
    simp only [bindParams, Noted.notes_bind, Noted.notes_pure, List.append_eq_nil_iff] at h
    exact .cons (keeps_bindParam h.2.1) (ih h.2.2.1)

theorem Site.Accepted.keeps {t : Site} (h : t.Accepted) {u : CompileUnit} {ci mi : Nat}
    (ht : site? u ci mi = some t) :
    List.Forall₂ BoundParam.Keeps t.bound.params t.method.params := by
  have hs := h.signature
  obtain ⟨c, m, -, -, rfl⟩ := site?_eq_some ht
  simp only [bindSignature, Noted.notes_bind, Noted.notes_pure, List.append_eq_nil_iff] at hs
  exact forall₂_keeps_bindParams hs.2.1

/-- The signature of a site is the one that other bodies know of it. -/
theorem exists_signature_of_site? {u : CompileUnit} {ci mi : Nat} {t : Site}
    (ht : site? u ci mi = some t) : ∃ c, (u.classes.map classSignatureOf)[ci]? = some c ∧
      c.methods[mi]? = some t.surroundings.method := by
  obtain ⟨c, m, hc, hm, rfl⟩ := site?_eq_some ht
  exact ⟨classSignatureOf c, by rw [List.getElem?_map, hc, Option.map_some],
    by rw [classSignatureOf, List.getElem?_map, hm, Option.map_some]; rfl⟩

/-- **All defaults can be written out**: there is an expression for each of them, and what it folds
to is what the parameter defaults to. -/
theorem exists_written {bs : List BoundParam} {qs : List Parameter}
    (h : List.Forall₂ BoundParam.Keeps bs qs) (hqs : ∀ q ∈ qs, q.default?.isSome) :
    ∃ es vs, List.Forall₂ Parameter.Writes qs es ∧ List.Forall₂ Expr.Folds es vs ∧
      List.Forall₂ BoundParam.DefaultsTo bs vs := by
  induction h with
  | nil => exact ⟨[], [], .nil, .nil, .nil⟩
  | cons hkeeps _ ih =>
    obtain ⟨hq, hqs⟩ := List.forall_mem_cons.1 hqs
    obtain ⟨e, v, hwrites, hfolds, hdefault⟩ := hkeeps hq
    obtain ⟨es, vs, hes, hvs, hbs⟩ := ih hqs
    exact ⟨e :: es, v :: vs, .cons hwrites hes, .cons hfolds hvs, .cons hdefault hbs⟩

theorem isSome_of_defaultsTo {bs : List BoundParam} {vs : List Value}
    (h : List.Forall₂ BoundParam.DefaultsTo bs vs) : ∀ b ∈ bs, b.default?.isSome := by
  induction h with
  | nil => simp
  | cons hdefault _ ih =>
    obtain ⟨v', -, hv'⟩ := hdefault
    exact List.forall_mem_cons.2 ⟨by simp [hv'], ih⟩

end Script

end Dossier
