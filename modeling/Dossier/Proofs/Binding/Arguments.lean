import Dossier.Proofs.Binding.Constants
import Dossier.Proofs.Binding.Target

/-!
# Calls with other arguments

What a call calls is found without its arguments, and the arguments are bound one by one.  So a call
that is bound without a note can be given other arguments: `Surroundings.notes_callExpr_of_admits`
asks only that the target can take so many.

`Surroundings.Binds` is binding without a note.  `binds_call_iff` takes a call that is bound so
apart into its arguments, its target and what the target admits, and `binds_call_append_iff` is what
this says of arguments that have a constant: written behind those of a call they change neither
whether it can be bound nor what it calls, as long as the target admits both.
-/

set_option autoImplicit false

namespace Dossier.Script

namespace Surroundings

variable {s : Surroundings} {scopes : Scopes}

/-! ## Lists of arguments -/

theorem value_bindArgs (s : Surroundings) (scopes : Scopes) (args : List Expr) :
    (s.bindArgs scopes args).value = args.map fun e ↦ (s.bindExpr scopes e).value := by
  induction args with
  | nil => rfl
  | cons e args ih => simp [bindArgs, ih]

theorem notes_bindArgs (s : Surroundings) (scopes : Scopes) (args : List Expr) :
    (s.bindArgs scopes args).notes = args.flatMap fun e ↦ (s.bindExpr scopes e).notes := by
  induction args with
  | nil => rfl
  | cons e args ih => simp [bindArgs, ih]

/-- Arguments that are folded into constants are bound without a note. -/
theorem notes_bindArgs_of_folds (s : Surroundings) (scopes : Scopes) {es : List Expr}
    {vs : List Value} (h : List.Forall₂ Expr.Folds es vs) :
    (s.bindArgs scopes es).notes = [] := by
  rw [notes_bindArgs]
  induction h with
  | nil => rfl
  | cons he _ ih => rw [List.flatMap_cons, ih, s.notes_bindExpr_of_folds scopes he]; rfl

/-! ## The target decides -/

variable {name : Name} {args args' : List BoundExpr} {span : Text.Span} {t : Target}

theorem notes_callMethod_of_admits {ci : Nat} {form : CallForm}
    (h : (s.callMethod ci name args span form).notes = [])
    (ht : s.methodTarget? ci name.text = some t) (ha : s.Admits t args'.length) :
    (s.callMethod ci name args' span form).notes = [] := by
  obtain ⟨c, mi, m, hc, hi, hm, -⟩ := callMethod_checked h
  obtain rfl : .method ci mi = t := by simpa [methodTarget?, hc, hi] using ht
  obtain ⟨c', m', hc', hm', hrequired, hparams⟩ := ha
  cases hc.symm.trans hc'
  cases hm.symm.trans hm'
  simp only [callMethod, hc, hi, hm, Noted.notes_bind, List.append_eq_nil_iff, notes_foundIf] at h ⊢
  exact ⟨h.1, h.2.1, h.2.2.1, by simp [hrequired, hparams], rfl⟩

/-- **The target decides which arguments a call can have**, not those that it has been given. -/
theorem notes_callExpr_of_admits {callee : Expr}
    (h : (s.callExpr scopes callee args span).notes = [])
    (ht : s.target? (hiddenBy scopes) callee = some t) (ha : s.Admits t args'.length) :
    (s.callExpr scopes callee args' span).notes = [] := by
  cases calls_of_clean h with
  | method ci name form htarget hown hself heq =>
    rw [heq] at h ⊢
    exact notes_callMethod_of_admits h (htarget ▸ ht) ha
  | library modules className name htarget heq =>
    rw [htarget, Option.map_eq_some_iff] at ht
    obtain ⟨m, hm, rfl⟩ := ht
    have haccepts : m.accepts args'.length = true := ha
    rw [heq, callLibrary, hm]
    simp [haccepts]

/-! ## Binding without a note -/

/-- The expression is bound to the code, and nothing is noted about it. -/
def Binds (s : Surroundings) (scopes : Scopes) (e : Expr) (b : BoundExpr) : Prop :=
  s.bindExpr scopes e = ⟨b, []⟩

theorem binds_iff {e : Expr} {b : BoundExpr} :
    s.Binds scopes e b ↔ (s.bindExpr scopes e).value = b ∧ (s.bindExpr scopes e).notes = [] := by
  rw [Binds]
  cases s.bindExpr scopes e
  simp

variable {callee : Expr} {exprs more : List Expr} {ci mi : Nat} {bound : List BoundExpr}

/-- **A call of a method is bound without a note** if its arguments are, if it calls the method by
the rule, and if it may call it with these arguments. -/
theorem binds_call_iff : s.Binds scopes (.call callee exprs span) (.call ci mi bound) ↔
    (s.bindArgs scopes exprs).notes = [] ∧ (s.bindArgs scopes exprs).value = bound ∧
      s.target? (hiddenBy scopes) callee = some (.method ci mi) ∧
      (s.callExpr scopes callee bound span).notes = [] := by
  simp only [binds_iff, bindExpr, Noted.value_bind, Noted.notes_bind, List.append_eq_nil_iff]
  constructor
  · rintro ⟨hvalue, hargs, hcall⟩
    obtain ⟨t, ht, hvalue', -⟩ := callExpr_clean hcall
    rw [hvalue'] at hvalue
    cases t with
    | library m => cases hvalue
    | method ci' mi' =>
      cases hvalue
      exact ⟨hargs, rfl, ht, hcall⟩
  · rintro ⟨hargs, rfl, ht, hcall⟩
    obtain ⟨t', ht', hvalue, -⟩ := callExpr_clean hcall
    cases ht.symm.trans ht'
    exact ⟨hvalue, hargs, hcall⟩

theorem Binds.length_eq
    (h : s.Binds scopes (.call callee exprs span) (.call ci mi bound)) :
    bound.length = exprs.length := by
  obtain ⟨-, rfl, -⟩ := binds_call_iff.1 h
  rw [value_bindArgs, List.length_map]

/-- Two lists of arguments that the target admits or refuses together. -/
theorem notes_callExpr_iff (ht : s.target? (hiddenBy scopes) callee = some t)
    (ha : s.Admits t args.length ↔ s.Admits t args'.length) :
    (s.callExpr scopes callee args span).notes = [] ↔
      (s.callExpr scopes callee args' span).notes = [] := by
  have hadmits {vs : List BoundExpr} (h : (s.callExpr scopes callee vs span).notes = []) :
      s.Admits t vs.length := by
    obtain ⟨t', ht', -, ha'⟩ := callExpr_clean h
    cases ht.symm.trans ht'
    exact ha'
  exact ⟨fun h ↦ notes_callExpr_of_admits h ht (ha.1 (hadmits h)),
    fun h ↦ notes_callExpr_of_admits h ht (ha.2 (hadmits h))⟩

/-- **More arguments behind those of a call**, which can be bound wherever they stand, leave it as
it is, as far as the method admits them. -/
theorem binds_call_append_iff (hmore : (s.bindArgs scopes more).notes = [])
    (ha : s.Admits (.method ci mi) exprs.length ↔
      s.Admits (.method ci mi) (exprs.length + more.length)) :
    s.Binds scopes (.call callee exprs span) (.call ci mi bound) ↔
      s.Binds scopes (.call callee (exprs ++ more) span)
        (.call ci mi (bound ++ (s.bindArgs scopes more).value)) := by
  have hnotes : (s.bindArgs scopes (exprs ++ more)).notes = [] ↔
      (s.bindArgs scopes exprs).notes = [] := by
    rw [notes_bindArgs, List.flatMap_append, ← notes_bindArgs, ← notes_bindArgs, hmore,
      List.append_nil]
  have hvalue : (s.bindArgs scopes (exprs ++ more)).value =
      (s.bindArgs scopes exprs).value ++ (s.bindArgs scopes more).value := by
    simp only [value_bindArgs, List.map_append]
  simp only [binds_call_iff, hnotes, hvalue, List.append_left_inj]
  refine and_congr_right fun _ ↦ and_congr_right fun hbound ↦ and_congr_right fun ht ↦ ?_
  refine notes_callExpr_iff ht ?_
  rw [List.length_append, ← hbound, value_bindArgs, value_bindArgs, List.length_map,
    List.length_map]
  exact ha

/-! ## Arguments with a default -/

/-- A call that leaves out arguments with a default and nothing else needs none of them. -/
theorem required_le_of_drop {m : Signature} {count : Nat} (hcount : count ≤ m.params.length)
    (h : ∀ q ∈ m.params.drop count, q.default?.isSome) : m.required ≤ count := by
  have hdrop : (m.params.drop count).countP (fun q ↦ q.default?.isNone) = 0 :=
    List.countP_eq_zero.2 fun q hq ↦ by
      simpa [Option.isSome_iff_ne_none] using h q hq
  calc m.required
      = (m.params.take count ++ m.params.drop count).countP (fun q ↦ q.default?.isNone) := by
        rw [List.take_append_drop, Signature.required]
    _ = (m.params.take count).countP (fun q ↦ q.default?.isNone) := by
        rw [List.countP_append, hdrop, Nat.add_zero]
    _ ≤ (m.params.take count).length := List.countP_le_length
    _ = count := by rw [List.length_take, Nat.min_eq_left hcount]

/-- Arguments with a default are admitted as well if they are written. -/
theorem admits_written_iff {c : ClassSignature} {m : Signature} (hc : s.classes[ci]? = some c)
    (hm : c.methods[mi]? = some m) {count : Nat}
    (h : ∀ q ∈ m.params.drop count, q.default?.isSome) (k : Nat) :
    s.Admits (.method ci mi) count ↔
      s.Admits (.method ci mi) (count + ((m.params.drop count).take k).length) := by
  have hiff (n : Nat) : s.Admits (.method ci mi) n ↔ m.required ≤ n ∧ n ≤ m.params.length := by
    simp [Admits, hc, hm]
  rw [hiff, hiff, List.length_take, List.length_drop]
  constructor
  · rintro ⟨hrequired, hparams⟩
    omega
  · rintro ⟨-, hparams⟩
    have hcount : count ≤ m.params.length := by omega
    exact ⟨required_le_of_drop hcount h, hcount⟩

end Surroundings

end Dossier.Script
