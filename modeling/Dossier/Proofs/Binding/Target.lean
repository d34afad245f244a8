import Dossier.Script.Binding
import Mathlib.Tactic.ByContra

/-!
# What a call means

`Surroundings.target?` is the rule by which a call finds what it calls, without the arguments and
without any note: a name alone and a name after `this` are a method of the same class; a name after
a path is a method of a class of the program, or of the library.  A local hides every class of its
name, so that the rule also asks which names are hidden.

`Calls` has the ways to write a call: of a method of a class, in one of three forms, or of one of
the library.  `callExpr_clean` says that binding follows the rule: where it notes nothing, there is
a target, the bound call is a call of it, and the target can take the arguments.
-/

set_option autoImplicit false

namespace Dossier.Script

/-- What a call calls. -/
inductive Target where
  /-- The method at a position in the class at a position. -/
  | method (classIndex methodIndex : Nat)
  /-- A method of the library. -/
  | library (m : LibraryMethod)
  deriving DecidableEq, Repr

/-- A call of a target. -/
def Target.call : Target → List BoundExpr → BoundExpr
  | method ci mi, args => .call ci mi args
  | library m, args => .library m args

namespace Surroundings

/-- The method of a name in the class at a position. -/
def methodTarget? (s : Surroundings) (classIndex : Nat) (name : String) : Option Target := do
  let c ← s.classes[classIndex]?
  let mi ← c.findMethod? name
  some (.method classIndex mi)

/-- What a name after a path means, when the names in `hidden` are locals. -/
def pathTarget? (s : Surroundings) (hidden : String → Bool) (path : List Name) (name : String) :
    Option Target :=
  match path with
  | [] => none
  | first :: rest =>
    if rest.isEmpty && hidden first.text then none
    else
      match s.classAt? path with
      | some ci => s.methodTarget? ci name
      | none =>
        match s.libraryClass? path with
        | some (modules, className) => (Library.find? modules className name).map .library
        | none => none

/-- What a called expression means, when the names in `hidden` are locals. -/
def target? (s : Surroundings) (hidden : String → Bool) : Expr → Option Target
  | .name n => s.methodTarget? s.classIndex n.text
  | .member (.self _) n _ => s.methodTarget? s.classIndex n.text
  | .member base n _ => base.path?.bind fun path ↦ s.pathTarget? hidden path n.text
  | _ => none

/-- Can the target be called with so many arguments? -/
def Admits (s : Surroundings) : Target → Nat → Prop
  | .method ci mi, count => ∃ c m, s.classes[ci]? = some c ∧ c.methods[mi]? = some m ∧
      m.required ≤ count ∧ count ≤ m.params.length
  | .library m, count => m.accepts count = true

/-- The names of locals. -/
def hiddenBy (scopes : Scopes) (name : String) : Bool := (scopes.find? name).isSome

/-! ## Binding follows the rule -/

theorem instead_ne_nil (problem : Problem) (span : Text.Span) :
    (instead problem span).notes ≠ [] := by
  simp [instead, found, Noted.note]

variable {s : Surroundings} {scopes : Scopes} {name : Name} {args : List BoundExpr}
  {span : Text.Span}

theorem notes_foundIf {b : Bool} {problem : Problem} {span : Text.Span} :
    (foundIf b problem span).notes = [] ↔ b = false := by
  cases b <;> simp [foundIf, Noted.noteIf]

/-- What has been checked of a call of a method of a class, if nothing is noted about it. -/
theorem callMethod_checked {ci : Nat} {form : CallForm}
    (h : (s.callMethod ci name args span form).notes = []) :
    ∃ c mi m, s.classes[ci]? = some c ∧ c.findMethod? name.text = some mi ∧
      c.methods[mi]? = some m ∧ (s.callMethod ci name args span form).value = .call ci mi args ∧
      (ci = s.classIndex ∨ m.isShared = true) ∧ (m.isStatic = true → form ≠ .onSelf) ∧
      (m.isStatic = false → s.hasReceiver form = true) ∧
      m.required ≤ args.length ∧ args.length ≤ m.params.length := by
  cases hc : s.classes[ci]? with
  | none =>
    simp only [callMethod, hc] at h
    exact absurd h (instead_ne_nil _ _)
  | some c =>
    cases hi : c.findMethod? name.text with
    | none =>
      simp only [callMethod, hc, hi] at h
      exact absurd h (instead_ne_nil _ _)
    | some mi =>
      cases hm : c.methods[mi]? with
      | none =>
        simp only [callMethod, hc, hi, hm] at h
        exact absurd h (instead_ne_nil _ _)
      | some m =>
        simp only [callMethod, hc, hi, hm, Noted.notes_bind, List.append_eq_nil_iff,
          notes_foundIf] at h
        obtain ⟨hshared, honSelf, hreceiver, hcount, -⟩ := h
        have hvalue : (s.callMethod ci name args span form).value = .call ci mi args := by
          simp only [callMethod, hc, hi, hm]
          rfl
        refine ⟨c, mi, m, rfl, hi, hm, hvalue, ?_, ?_, ?_, ?_, ?_⟩
        · simpa only [Bool.and_eq_false_iff, bne_eq_false_iff_eq, Bool.not_eq_false'] using hshared
        · rintro hstatic rfl
          simp [hstatic] at honSelf
        · intro hstatic
          simpa [hstatic] using hreceiver
        · simp only [Bool.or_eq_false_iff, decide_eq_false_iff_not, Nat.not_lt] at hcount
          exact hcount.1
        · simp only [Bool.or_eq_false_iff, decide_eq_false_iff_not, Nat.not_lt] at hcount
          exact hcount.2

theorem callMethod_clean {ci : Nat} {form : CallForm}
    (h : (s.callMethod ci name args span form).notes = []) :
    ∃ t, s.methodTarget? ci name.text = some t ∧
      (s.callMethod ci name args span form).value = t.call args ∧ s.Admits t args.length := by
  obtain ⟨c, mi, m, hc, hi, hm, hvalue, -, -, -, hcount⟩ := callMethod_checked h
  exact ⟨.method ci mi, by simp [methodTarget?, hc, hi], hvalue, c, m, hc, hm, hcount⟩

theorem callLibrary_clean {modules : List String} {className : String}
    (h : (callLibrary modules className name args span).notes = []) :
    ∃ m, Library.find? modules className name.text = some m ∧
      (callLibrary modules className name args span).value = .library m args ∧
      m.accepts args.length = true := by
  rw [callLibrary] at h ⊢
  cases hm : Library.find? modules className name.text with
  | none =>
    simp only [hm] at h
    exact absurd h (instead_ne_nil _ _)
  | some m =>
    simp only [hm] at h ⊢
    cases ha : m.accepts args.length with
    | false =>
      simp only [ha, Bool.false_eq_true, if_false] at h
      exact absurd h (instead_ne_nil _ _)
    | true => exact ⟨m, rfl, rfl, ha⟩

/-! ## The ways to call -/

/-- A call after a path that is clean is one of a method of a class or of the library, and would be
this with other arguments as well. -/
theorem callPath_cases {path : List Name}
    (h : (s.callPath scopes path name args span).notes = []) :
    (∃ ci, s.pathTarget? (hiddenBy scopes) path name.text = s.methodTarget? ci name.text ∧
      ∀ args, s.callPath scopes path name args span = s.callMethod ci name args span .onClass) ∨
    ∃ modules className, s.pathTarget? (hiddenBy scopes) path name.text =
        (Library.find? modules className name.text).map .library ∧
      ∀ args, s.callPath scopes path name args span =
        callLibrary modules className name args span := by
  cases path with
  | nil => exact absurd h (instead_ne_nil _ _)
  | cons first rest =>
    simp only [callPath, pathTarget?] at h ⊢
    by_cases hlocal : (rest.isEmpty && (scopes.find? first.text).isSome) = true
    · simp only [if_pos hlocal] at h
      exact absurd h (instead_ne_nil _ _)
    have hhidden : ¬ (rest.isEmpty && hiddenBy scopes first.text) = true := hlocal
    simp only [if_neg hlocal, if_neg hhidden] at h ⊢
    cases hc : s.classAt? (first :: rest) with
    | some ci => exact .inl ⟨ci, rfl, fun _ ↦ rfl⟩
    | none =>
      simp only [hc] at h ⊢
      cases hl : s.libraryClass? (first :: rest) with
      | some place => exact .inr ⟨place.1, place.2, rfl, fun _ ↦ rfl⟩
      | none =>
        simp only [hl] at h
        split at h <;> exact absurd h (instead_ne_nil _ _)

/-- What is called by an expression, whatever the arguments are. -/
inductive Calls (s : Surroundings) (scopes : Scopes) (callee : Expr) (span : Text.Span) : Prop
  /-- A method of the class at a position.  A form that means the class of the caller is used for
  that class, and `this` where there is one. -/
  | method (ci : Nat) (name : Name) (form : CallForm)
    (htarget : s.target? (hiddenBy scopes) callee = s.methodTarget? ci name.text)
    (hown : form ≠ .onClass → s.classIndex = ci)
    (hself : form = .onSelf → s.method.isStatic = false)
    (heq : ∀ args, s.callExpr scopes callee args span = s.callMethod ci name args span form)
  /-- A method of the library. -/
  | library (modules : List String) (className : String) (name : Name)
    (htarget : s.target? (hiddenBy scopes) callee =
      (Library.find? modules className name.text).map .library)
    (heq : ∀ args, s.callExpr scopes callee args span =
      callLibrary modules className name args span)

/-- A call on `this` is one of a method of the same class, where there is an instance. -/
theorem callExpr_self {selfSpan memberSpan : Text.Span} (hself : s.method.isStatic = false)
    (args : List BoundExpr) :
    s.callExpr scopes (.member (.self selfSpan) name memberSpan) args span =
      s.callMethod s.classIndex name args span .onSelf := by
  rw [callExpr, checkSelf, hself]
  rfl

/-- A call after a path calls what the path leads to. -/
theorem calls_path {callee : Expr} {path : List Name}
    (htarget : s.target? (hiddenBy scopes) callee =
      s.pathTarget? (hiddenBy scopes) path name.text)
    (heq : ∀ args, s.callExpr scopes callee args span = s.callPath scopes path name args span)
    (h : (s.callPath scopes path name args span).notes = []) : s.Calls scopes callee span := by
  rcases callPath_cases h with ⟨ci, ht, hpath⟩ | ⟨modules, className, ht, hpath⟩
  · exact .method ci name .onClass (htarget.trans ht) (absurd rfl) nofun
      fun args ↦ (heq args).trans (hpath args)
  · exact .library modules className name (htarget.trans ht)
      fun args ↦ (heq args).trans (hpath args)

/-- **The ways to call**, if nothing is noted about a call with some arguments. -/
theorem calls_of_clean {callee : Expr} (h : (s.callExpr scopes callee args span).notes = []) :
    s.Calls scopes callee span := by
  cases callee with
  | name n => exact .method s.classIndex n .bare rfl (fun _ ↦ rfl) nofun fun _ ↦ rfl
  | member base n memberSpan =>
    cases base with
    | self selfSpan =>
      simp only [callExpr, checkSelf, Noted.notes_bind, List.append_eq_nil_iff,
        notes_foundIf] at h
      exact .method s.classIndex n .onSelf rfl (fun _ ↦ rfl) (fun _ ↦ h.1) (callExpr_self h.1)
    | name first => exact calls_path rfl (fun _ ↦ rfl) h
    | member base m baseSpan =>
      cases hp : (Expr.member base m baseSpan).path? with
      | some path =>
        have heq (args : List BoundExpr) :
            s.callExpr scopes (.member (.member base m baseSpan) n memberSpan) args span =
              s.callPath scopes path n args span := by
          simp only [callExpr, hp]
        rw [heq] at h
        exact calls_path (by simp only [target?, hp, Option.bind_some]) heq h
      | none =>
        simp only [callExpr, hp] at h
        exact absurd h (instead_ne_nil _ _)
    | _ => exact absurd h (instead_ne_nil _ _)
  | _ => exact absurd h (instead_ne_nil _ _)

/-- **Binding a call follows the rule.** -/
theorem callExpr_clean {callee : Expr}
    (h : (s.callExpr scopes callee args span).notes = []) :
    ∃ t, s.target? (hiddenBy scopes) callee = some t ∧
      (s.callExpr scopes callee args span).value = t.call args ∧ s.Admits t args.length := by
  cases calls_of_clean h with
  | method ci name form htarget hown hself heq =>
    rw [heq] at h ⊢
    rw [htarget]
    exact callMethod_clean h
  | library modules className name htarget heq =>
    rw [heq] at h ⊢
    obtain ⟨m, hm, hvalue, ha⟩ := callLibrary_clean h
    exact ⟨.library m, by rw [htarget, hm, Option.map_some], hvalue, ha⟩

end Surroundings

end Dossier.Script
