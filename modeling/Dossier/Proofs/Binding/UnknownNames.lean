import Dossier.Proofs.Binding.Located
import Dossier.Proofs.Binding.Occurrences

/-!
# Unknown names

Which names that stand as values and are unknown are reported: all but the hidden ones.

* `Reports x os` compares what is noted on the way to `x` with the names of what it is made from:
  each unknown name in sight is noted where it stands, and whatever is noted as an unknown name
  stands where a name in sight does.  It goes along binding step by step (`Reports.bind`), in
  whatever order the parts are bound.
* `Knows` ties the scopes of the binder to the names in scope.
* `Surroundings.reports_bindStmts` is the result for statements, by induction on the tree.
* As no two names of a body stand at one place, a hidden name is not noted (`in_sight_of_noted`);
  `unknown_reported_iff` is the result for whole units.
-/

set_option autoImplicit false

namespace Dossier.Script

open Text (Span)

/-! ## What is noted of names -/

/-- Is the problem that of an unknown name? -/
def Problem.isUnknownName : Problem → Bool
  | unknownName _ => true
  | _ => false

/-- What is to be noted of an unknown name. -/
def Occurrence.note (o : Occurrence) : Placed := ⟨.unknownName o.name.text, o.name.span⟩

/-- The places of the names in sight. -/
def placesInSight (os : List Occurrence) : List Span := placesOf (os.filter fun o ↦ !o.hidden)

theorem placesInSight_append (os os' : List Occurrence) :
    placesInSight (os ++ os') = placesInSight os ++ placesInSight os' := by
  simp [placesInSight]

theorem placesInSight_plain (names : List Name) :
    placesInSight (plainOccurrences false names) = names.map Name.span := by
  simp [placesInSight, placesOf, plainOccurrences, List.filter_map, Function.comp_def]

/-- Unknown names are noted at these places only. -/
def NotesOnly {α : Type} (places : List Span) (x : Found α) : Prop :=
  ∀ p ∈ x.notes, p.problem.isUnknownName = true → p.span ∈ places

namespace NotesOnly

variable {α β : Type} {places : List Span}

protected theorem pure (a : α) : NotesOnly places (pure a : Found α) := nofun

protected theorem bind {x : Found α} {f : α → Found β} (hx : NotesOnly places x)
    (hf : ∀ a, NotesOnly places (f a)) : NotesOnly places (x >>= f) :=
  List.forall_mem_append.2 ⟨hx, hf x.value⟩

protected theorem found {problem : Problem} {span : Span}
    (h : problem.isUnknownName = true → span ∈ places) : NotesOnly places (found problem span) :=
  List.forall_mem_singleton.2 h

protected theorem foundIf (condition : Bool) {problem : Problem}
    (h : problem.isUnknownName = false) (span : Span) :
    NotesOnly places (foundIf condition problem span) := by
  cases condition with
  | false => exact nofun
  | true => exact List.forall_mem_singleton.2 fun h' ↦ absurd h' (by simp [h])

protected theorem instead {problem : Problem} {span : Span}
    (h : problem.isUnknownName = true → span ∈ places) :
    NotesOnly places (instead problem span) := (NotesOnly.found h).bind fun _ ↦ .pure _

end NotesOnly

/-- What is noted of unknown names, on the way to `x`, is noted of the names in sight: of each one
that is unknown, and nowhere else. -/
structure Reports {α : Type} (x : Found α) (os : List Occurrence) : Prop where
  noted : ∀ o ∈ os, o.unknown = true → o.hidden = false → o.note ∈ x.notes
  only : NotesOnly (placesInSight os) x

namespace Reports

variable {α β : Type} {os os' : List Occurrence}

protected theorem pure (a : α) : Reports (pure a : Found α) [] := ⟨nofun, nofun⟩

/-- A step and what follows it, each with its own names. -/
protected theorem bind {x : Found α} {f : α → Found β} (hx : Reports x os)
    (hf : Reports (f x.value) os') : Reports (x >>= f) (os ++ os') where
  noted := List.forall_mem_append.2
    ⟨fun o ho hu hh ↦ List.mem_append_left _ (hx.noted o ho hu hh),
      fun o ho hu hh ↦ List.mem_append_right _ (hf.noted o ho hu hh)⟩
  only := by
    rw [placesInSight_append]
    exact List.forall_mem_append.2
      ⟨fun p hp hu ↦ List.mem_append_left _ (hx.only p hp hu),
        fun p hp hu ↦ List.mem_append_right _ (hf.only p hp hu)⟩

/-- The names in another order. -/
theorem swap {x : Found α} (h : Reports x (os ++ os')) : Reports x (os' ++ os) where
  noted o ho := h.noted o (List.mem_append.2 (List.mem_append.1 ho).symm)
  only p hp hu := by
    have := h.only p hp hu
    rw [placesInSight_append, List.mem_append] at this ⊢
    exact this.symm

/-- A step without names of its own. -/
theorem after {x : Found α} {f : α → Found β} (hx : Reports x []) (hf : Reports (f x.value) os) :
    Reports (x >>= f) os := hx.bind hf

/-- What follows a step has no names of its own. -/
theorem before {x : Found α} {f : α → Found β} (hx : Reports x os)
    (hf : Reports (f x.value) []) : Reports (x >>= f) os := by
  simpa using hx.bind hf

/-- The same notes. -/
theorem of_notes {x : Found α} {y : Found β} (h : Reports x os) (hnotes : y.notes = x.notes) :
    Reports y os := ⟨hnotes ▸ h.noted, by simpa only [NotesOnly, hnotes] using h.only⟩

/-- Where no name in sight is unknown, only the places count. -/
theorem of_only {x : Found α} (hos : Unmarked os)
    (h : NotesOnly (placesInSight os) x) : Reports x os :=
  ⟨fun o ho hu hh ↦ absurd (hos o ho hu) (by simp [hh]), h⟩

end Reports

/-! ## Expressions -/

/-- The scopes have the names. -/
structure Knows (scopes : Scopes) (known : List String) : Prop where
  ne_nil : scopes ≠ []
  find : ∀ w, (scopes.find? w).isSome = known.contains w

namespace Knows

variable {scopes : Scopes} {known : List String}

theorem enter (h : Knows scopes known) : Knows ([] :: scopes) known :=
  ⟨List.cons_ne_nil _ _, h.find⟩

theorem declare (h : Knows scopes known) (name : String) (l : Local) :
    Knows (scopes.declare name l) (name :: known) where
  ne_nil := Scopes.declare_ne_nil h.ne_nil name l
  find w := by
    rw [Scopes.find?_declare h.ne_nil, List.contains_cons, ← h.find]
    by_cases hw : w = name <;> simp [hw]

end Knows

theorem not_isUnknownName_memberProblem (base : Expr) (member : Name) :
    (Surroundings.memberProblem base member).isUnknownName = false := by
  unfold Surroundings.memberProblem
  split
  · rfl
  · split <;> rfl

namespace Surroundings

variable (s : Surroundings)

section Calls

variable {places : List Span} {name : Name} (hname : name.span ∈ places)
include hname

theorem notesOnly_callMethod (classIndex : Nat) (args : List BoundExpr) (span : Span)
    (form : CallForm) : NotesOnly places (s.callMethod classIndex name args span form) := by
  unfold callMethod
  split
  · exact .instead fun _ ↦ hname
  · split
    · exact .instead fun _ ↦ hname
    · split
      · exact (NotesOnly.foundIf _ rfl _).bind fun _ ↦ (NotesOnly.foundIf _ rfl _).bind fun _ ↦
          (NotesOnly.foundIf _ rfl _).bind fun _ ↦ (NotesOnly.foundIf _ rfl _).bind fun _ ↦ .pure _
      · exact .instead fun _ ↦ hname

omit hname in
theorem notesOnly_callLibrary (modules : List String) (className : String) (args : List BoundExpr)
    (span : Span) : NotesOnly places (callLibrary modules className name args span) := by
  unfold callLibrary
  split
  · exact .instead nofun
  · split
    · exact .pure _
    · exact .instead nofun

theorem notesOnly_callPath (scopes : Scopes) {path : List Name}
    (hpath : ∀ n ∈ path, n.span ∈ places) (args : List BoundExpr) (span : Span) :
    NotesOnly places (s.callPath scopes path name args span) := by
  unfold callPath
  split
  · exact .instead nofun
  · rename_i first rest
    split
    · exact .instead nofun
    · split
      · exact s.notesOnly_callMethod hname _ args span _
      · split
        · exact notesOnly_callLibrary _ _ args span
        · split
          · exact .instead fun _ ↦ hpath first (List.mem_cons_self ..)
          · exact .instead nofun

end Calls

/-- What is called, whatever the arguments are. -/
theorem reports_callExpr (scopes : Scopes) (known : List String) (callee : Expr)
    (args : List BoundExpr) (span : Span) :
    Reports (s.callExpr scopes callee args span) (callee.calleeOccurrences known false) := by
  refine .of_only (callee.unmarked_callee known) ?_
  unfold callExpr
  split
  · rename_i n
    have hplaces : placesInSight ((Expr.name n).calleeOccurrences known false) = [n.span] :=
      placesInSight_plain [n]
    exact s.notesOnly_callMethod (hplaces ▸ List.mem_singleton_self _) _ args span _
  · rename_i selfSpan n memberSpan
    have hplaces : placesInSight ((Expr.member (.self selfSpan) n memberSpan).calleeOccurrences
        known false) = [n.span] := by
      simp [Expr.calleeOccurrences, Expr.path?, Expr.isMember, Expr.occurrences, placesInSight]
    exact (NotesOnly.foundIf _ rfl _).bind fun _ ↦
      s.notesOnly_callMethod (hplaces ▸ List.mem_singleton_self _) _ args span _
  · rename_i base n memberSpan _
    split
    · rename_i path hpath
      have hplaces : placesInSight ((Expr.member base n memberSpan).calleeOccurrences known false) =
          (path ++ [n]).map Name.span := by
        simp only [Expr.calleeOccurrences, Expr.path?, hpath, Option.map_some, placesInSight_plain]
      rw [hplaces]
      refine s.notesOnly_callPath (by simp) scopes (fun n' hn' ↦ ?_) args span
      exact List.mem_map_of_mem (List.mem_append_left _ hn')
    · exact .instead nofun
  · exact .instead nofun

/-- A name that stands as a value. -/
theorem reports_name {scopes : Scopes} {known : List String} (hk : Knows scopes known) (n : Name) :
    Reports (s.bindExpr scopes (.name n)) ((Expr.name n).occurrences known false) := by
  have hfind := hk.find n.text
  rw [bindExpr, Expr.occurrences]
  cases h : scopes.find? n.text with
  | some l =>
    have hmem : n.text ∈ known := by simpa [h] using hfind
    exact .of_only (by simp [Unmarked, hmem]) (.pure _)
  | none =>
    refine ⟨fun o ho _ _ ↦ ?_, .instead fun _ ↦ ?_⟩
    · obtain rfl := List.mem_singleton.1 ho
      exact List.mem_cons_self ..
    · simp [placesInSight, placesOf]

mutual

/-- **Every unknown name in sight in an expression is noted.** -/
theorem reports_bindExpr {scopes : Scopes} {known : List String} (hk : Knows scopes known) :
    (e : Expr) → Reports (s.bindExpr scopes e) (e.occurrences known false)
  | .literal _ _ => .pure _
  | .name n => s.reports_name hk n
  | .self _ => .of_only nofun ((NotesOnly.foundIf _ rfl _).bind fun _ ↦ .pure _)
  | .unary _ e _ => (reports_bindExpr hk e).before (.pure _)
  | .binary _ l r _ => (reports_bindExpr hk l).bind ((reports_bindExpr hk r).before (.pure _))
  | .member base m _ => by
    refine .of_only ?_ (.instead fun h ↦ ?_)
    · exact Expr.unmarked_member known base m _
    · rw [not_isUnknownName_memberProblem] at h
      cases h
  | .call callee args span => by
    rw [Expr.occurrences_call]
    refine .swap ?_
    exact (reports_bindArgs hk args).bind (s.reports_callExpr scopes known callee _ span)

theorem reports_bindArgs {scopes : Scopes} {known : List String} (hk : Knows scopes known) :
    (args : List Expr) → Reports (s.bindArgs scopes args) (occurrencesOfArgs known false args)
  | [] => .pure _
  | arg :: args => (reports_bindExpr hk arg).bind ((reports_bindArgs hk args).before (.pure _))

end

theorem reports_bindExpr? {scopes : Scopes} {known : List String} (hk : Knows scopes known)
    (e : Option Expr) : Reports (s.bindExpr? scopes e) (occurrencesOfOption known false e) := by
  cases e with
  | none => exact .pure _
  | some e => exact (s.reports_bindExpr hk e).before (.pure _)

/-! ## Statements -/

theorem reports_bindTypeName? (type : Option TypeName) :
    Reports (bindTypeName? type) (plainOccurrences false (namesOfType type)) := by
  refine .of_only (unmarked_plain _ _) ?_
  cases type with
  | none => exact .pure _
  | some type =>
    refine NotesOnly.bind ?_ fun _ ↦ .pure _
    unfold bindTypeName
    dsimp only
    split
    · exact NotesOnly.bind (.found (by simp [Problem.isUnknownName])) fun _ ↦ .pure _
    · exact .pure _
    · exact NotesOnly.bind (.found (by simp [Problem.isUnknownName])) fun _ ↦ .pure _

theorem reports_bindDeclare {d : Declared} {known : List String} (hk : Knows d.scopes known)
    (name : Name) (type : Option TypeName) (init : Option Expr) :
    Reports (s.bindDeclare d name type init)
      (plainOccurrences false (namesOfType type) ++
        (plainOccurrences false [name] ++ occurrencesOfOption known false init)) := by
  refine (reports_bindTypeName? type).bind (.swap ?_)
  refine (s.reports_bindExpr? hk init).bind (.of_only (unmarked_plain _ _) ?_)
  exact (NotesOnly.foundIf _ rfl _).bind fun _ ↦ .pure _

theorem reports_bindAssign {scopes : Scopes} {known : List String} (hk : Knows scopes known)
    (op : AssignOp) (target value : Expr) :
    Reports (s.bindAssign scopes op target value)
      (target.occurrences known (!target.isName) ++ value.occurrences known false) := by
  refine .swap ((s.reports_bindExpr hk value).bind ?_)
  cases target with
  | name n =>
    have hname := s.reports_name hk n
    cases h : scopes.find? n.text with
    | some l => exact hname.of_notes (by simp [h, bindExpr])
    | none => exact hname.of_notes (by simp [h, bindExpr, instead])
  | _ =>
    refine .of_only (fun o ho _ ↦ Expr.hidden_occurrences known _ o ho) ?_
    exact NotesOnly.bind (.found nofun) fun _ ↦ .pure _

theorem reports_bindGiveBack {scopes : Scopes} {known : List String} (hk : Knows scopes known)
    (value : Option Expr) (span : Span) :
    Reports (s.bindGiveBack scopes value span)
      (occurrencesOfOption known (s.method.returns == .void) value) := by
  rw [bindGiveBack.eq_def]
  cases hvoid : s.method.returns == .void with
  | true =>
    cases value with
    | none => exact .pure _
    | some e =>
      refine .of_only (fun o ho _ ↦ e.hidden_occurrences known o ho) ?_
      exact NotesOnly.bind (.found nofun) fun _ ↦ .pure _
  | false =>
    cases value with
    | none => exact .of_only nofun (NotesOnly.bind (.found nofun) fun _ ↦ .pure _)
    | some e => exact (s.reports_bindExpr? hk (some e)).before (.pure _)

/-- What is declared after a statement. -/
theorem knows_bindStmt {d : Declared} {known : List String} (hk : Knows d.scopes known)
    (stmt : Stmt) : Knows (s.bindStmt d stmt).value.2.scopes (stmt.known known) := by
  cases stmt with
  | declare name type init => exact hk.declare _ _
  | branch condition body _ otherwise =>
    have hscopes := s.bindOtherwise_scopes ((s.bindStmts d.enter body).value.2.leaveTo d) otherwise
    show Knows (s.bindOtherwise _ otherwise).value.2.scopes known
    rw [hscopes]
    exact hk
  | _ => exact hk

mutual

theorem reports_bindStmt {d : Declared} {known : List String} (hk : Knows d.scopes known) :
    (stmt : Stmt) → Reports (s.bindStmt d stmt)
      (stmt.occurrences (s.method.returns == .void) known)
  | .declare name type init _ => s.reports_bindDeclare hk name type init
  | .assign op target value _ => (s.reports_bindAssign hk op target value).before (.pure _)
  | .giveBack value span => (s.reports_bindGiveBack hk value span).before (.pure _)
  | .branch condition body _ otherwise _ => by
    have hotherwise := reports_bindOtherwise
      (d := (s.bindStmts d.enter body).value.2.leaveTo d) hk otherwise
    exact (s.reports_bindExpr hk condition).bind
      ((reports_bindStmts hk.enter body).bind (.before hotherwise (.pure _)))
  | .loop condition body _ _ =>
    (s.reports_bindExpr hk condition).bind ((reports_bindStmts hk.enter body).before (.pure _))
  | .throw value _ => (s.reports_bindExpr hk value).before (.pure _)
  | .block body _ => (reports_bindStmts hk.enter body).before (.pure _)
  | .expr e span =>
    .after (.of_only nofun (NotesOnly.foundIf _ rfl _)) ((s.reports_bindExpr hk e).before (.pure _))

theorem reports_bindOtherwise {d : Declared} {known : List String} (hk : Knows d.scopes known) :
    (o : Otherwise) → Reports (s.bindOtherwise d o)
      (o.occurrences (s.method.returns == .void) known)
  | .nothing => .pure _
  | .block body _ => (reports_bindStmts hk.enter body).before (.pure _)
  | .branch condition body _ otherwise _ => by
    have hotherwise := reports_bindOtherwise
      (d := (s.bindStmts d.enter body).value.2.leaveTo d) hk otherwise
    exact (s.reports_bindExpr hk condition).bind
      ((reports_bindStmts hk.enter body).bind (.before hotherwise (.pure _)))

/-- **Every unknown name in sight in statements is noted.** -/
theorem reports_bindStmts {d : Declared} {known : List String} (hk : Knows d.scopes known) :
    (stmts : List Stmt) → Reports (s.bindStmts d stmts)
      (occurrencesOfBody (s.method.returns == .void) known stmts)
  | [] => .pure _
  | first :: rest =>
    (reports_bindStmt hk first).bind
      ((reports_bindStmts (s.knows_bindStmt hk first) rest).before (.pure _))

end

end Surroundings

/-! ## Bodies -/

/-- The method has no result. -/
def isVoid (m : Method) : Bool := ValueType.ofText? m.returns == some .void

/-- The names of the body of a method, where its parameters are in scope. -/
def occurrencesIn (m : Method) : List Occurrence :=
  occurrencesOfBody (isVoid m) (m.params.map Parameter.name).reverse (parse m.body).statements

theorem returns_signatureOf (fullName : String) (m : Method) :
    ((signatureOf fullName m).returns == .void) = isVoid m := by
  show ((bindSignatureType _ m.returns).value == .void) = isVoid m
  rw [bindSignatureType, isVoid]
  cases ValueType.ofText? m.returns <;> rfl

theorem name_bindParam (method : String) (p : Parameter) :
    (bindParam method p).value.name = p.name := by
  rw [bindParam]
  cases p.default? <;> rfl

theorem names_bindParams (method : String) (before : List String) (ps : List Parameter) :
    (bindParams method before ps).value.map BoundParam.name = ps.map Parameter.name := by
  induction ps generalizing before with
  | nil => rfl
  | cons p ps ih => simp [bindParams, name_bindParam, ih]

/-- The parameters are in scope at the start of a body. -/
theorem knows_ofParams (params : List BoundParam) :
    Knows (Declared.ofParams params).scopes (params.map BoundParam.name).reverse := by
  have hfold (d : Declared) (known : List String) (hk : Knows d.scopes known) :
      Knows (params.foldl (fun d p ↦ d.declare p.name (some p.type)) d).scopes
        ((params.map BoundParam.name).reverse ++ known) := by
    induction params generalizing d known with
    | nil => exact hk
    | cons p ps ih => simpa using ih _ _ (hk.declare p.name ⟨d.frameSize, some p.type⟩)
  simpa [Declared.ofParams] using hfold ⟨[[]], 0⟩ [] ⟨List.cons_ne_nil _ _, fun _ ↦ rfl⟩

/-- The names of a body and what is noted of it. -/
theorem reports_bodyNoted (u : CompileUnit) (classIndex : Nat) (c : Namespace × Class)
    (m : Method) : Reports (siteIn u classIndex c m).bodyNoted (occurrencesIn m) := by
  let s := (siteIn u classIndex c m).surroundings
  have hnames : s.method.params.map BoundParam.name = m.params.map Parameter.name :=
    names_bindParams _ _ _
  have hvoid : (s.method.returns == .void) = isVoid m := returns_signatureOf _ m
  have h := s.reports_bindStmts (knows_ofParams s.method.params) (parse m.body).statements
  rw [hnames, hvoid] at h
  exact h.before (.pure _)

/-- **Where an unknown name is noted, the name that stands there is in sight**, in a body that can
be parsed. -/
theorem in_sight_of_noted {u : CompileUnit} {classIndex : Nat} {c : Namespace × Class} {m : Method}
    (hparse : (parse m.body).errors = []) {o : Occurrence} (ho : o ∈ occurrencesIn m) {p : Placed}
    (hp : p ∈ (siteIn u classIndex c m).bodyNoted.notes) (hname : p.problem.isUnknownName = true)
    (hspan : p.span = o.name.span) : o.hidden = false := by
  obtain ⟨o', ho', hspan'⟩ := List.mem_map.1 ((reports_bodyNoted u classIndex c m).only p hp hname)
  obtain ⟨ho', hsight⟩ := List.mem_filter.1 ho'
  -- what is noted there is noted of a name in sight, and only one name stands there
  obtain rfl := Occurrence.eq_of_span_eq hparse ho ho' (hspan.symm.trans hspan'.symm)
  simpa using hsight

/-! ## Units -/

/-- What is to be said of an unknown name in the body of a method. -/
def Occurrence.diagnostic (o : Occurrence) (c : Namespace × Class) (m : Method) : Diagnostic :=
  (Problem.unknownName o.name.text).toDiagnostic
    (some (Location.inBody c.1.name c.2.name m.name m.body o.name.span))

theorem Problem.isUnknownName_of_code {p : Problem} (h : p.code = "JS0103") :
    p.isUnknownName = true := by
  cases p with
  | unknownName _ => rfl
  | _ => exact absurd h (by simp [Problem.code])

/-- What is said of a body that can be parsed, with a place, is what is noted of its statements. -/
theorem mem_bodyNotes_iff {u : CompileUnit} {classIndex : Nat} {c : Namespace × Class} {m : Method}
    (hparse : (parse m.body).errors = []) {d : Diagnostic} {l : Location}
    (hl : d.location = some l) :
    d ∈ bodyNotes u classIndex c m ↔
      ∃ p ∈ (siteIn u classIndex c m).bodyNoted.notes, p.problem.toDiagnostic
        (some (Location.inBody c.1.name c.2.name m.name m.body p.span)) = d := by
  have hlast (incomplete : Bool) (p : Problem) :
      d ∉ (if incomplete then [p.toDiagnostic none] else []) := by
    intro hd
    split at hd
    · obtain rfl := List.mem_singleton.1 hd
      cases hl
    · cases hd
  have hempty : (parse (siteIn u classIndex c m).method.body).errors.isEmpty = true := by
    rw [List.isEmpty_iff]
    exact hparse
  rw [bodyNotes, Site.bind, bindMethod, if_pos hempty]
  exact (List.mem_append.trans (or_iff_left (hlast _ _))).trans List.mem_map

/-- What is said of the body of a method is said of the unit. -/
theorem mem_diagnosticsOf {u : CompileUnit} {classIndex : Nat} {c : Namespace × Class} {m : Method}
    (hc : u.classes[classIndex]? = some c) (hm : m ∈ c.2.methods) {d : Diagnostic}
    (hd : d ∈ bodyNotes u classIndex c m) (references : List String) :
    d ∈ diagnosticsOf u references := by
  have hbody : bodyNotes u classIndex c m ∈ allBodyNotes u :=
    List.mem_flatMap.2 ⟨(c, classIndex), List.mem_zipIdx_iff_getElem?.2 hc, List.mem_map_of_mem hm⟩
  exact List.mem_append_right _ (List.mem_append_right _ (List.mem_flatten_of_mem hbody hd))

/-- A unit of which something is said cannot be bound, and all of it is said. -/
theorem bind_of_mem_diagnosticsOf {u : CompileUnit} {references : List String} {d : Diagnostic}
    (hd : d ∈ diagnosticsOf u references) :
    bind u references = .error (diagnosticsOf u references) := by
  have hempty : ¬ (bindAll u references).notes.isEmpty = true := by
    rw [notes_bindAll, List.isEmpty_iff]
    exact List.ne_nil_of_mem hd
  rw [bind, if_neg hempty, notes_bindAll]

/-- **Which unknown names are reported.**  Let a name stand as a value in a body without syntax
errors, and let no parameter or local in scope have it.  It is reported as unknown at its own place
exactly if it is not hidden: if it is not in the value that a method without a result gives back,
not in what stands in front of a point or is called and is no path of names, and not in the target
of an assignment that is no name.  Whatever else is wrong with the same statement or elsewhere, it
is then among what `bind` says of the unit. -/
theorem unknown_reported_iff {u : CompileUnit} {classIndex : Nat} {c : Namespace × Class}
    (hc : u.classes[classIndex]? = some c) {m : Method} (hm : m ∈ c.2.methods)
    (hparse : (parse m.body).errors = []) {o : Occurrence} (ho : o ∈ occurrencesIn m)
    (hu : o.unknown = true) :
    (o.diagnostic c m ∈ bodyNotes u classIndex c m ↔ o.hidden = false) ∧
      (o.hidden = false → ∀ references, ∃ ds,
        bind u references = .error ds ∧ o.diagnostic c m ∈ ds) := by
  have hnotes : o.diagnostic c m ∈ bodyNotes u classIndex c m ↔ o.hidden = false := by
    rw [mem_bodyNotes_iff hparse rfl]
    constructor
    · rintro ⟨p, hp, heq⟩
      have hcode : p.problem.code = "JS0103" := congrArg Diagnostic.code heq
      have hspan : p.span = o.name.span :=
        congrArg Location.span (Option.some.inj (congrArg Diagnostic.location heq))
      exact in_sight_of_noted hparse ho hp (Problem.isUnknownName_of_code hcode) hspan
    · intro h
      exact ⟨o.note, (reports_bodyNoted u classIndex c m).noted o ho hu h, rfl⟩
  refine ⟨hnotes, fun h references ↦ ?_⟩
  have hd := mem_diagnosticsOf hc hm (hnotes.2 h) references
  exact ⟨_, bind_of_mem_diagnosticsOf hd, hd⟩

/-- A method without a result that speaks of two names that are not there, and gives back the
second. -/
def sumMethod : Method := ⟨"Run", .everyone, true, "void", [], "var sum = first; return second;"⟩

/-- A class with this method. -/
def ledgerClass : Class := ⟨"Ledger", .everyone, true, [sumMethod]⟩

/-- The class, in its namespace. -/
def sumClass : Namespace × Class := (⟨"Acme", [], [ledgerClass]⟩, ledgerClass)

/-- A unit with the class. -/
def sumUnit : CompileUnit := ⟨[sumClass.1]⟩

/-- The first name is reported. -/
theorem sumUnit_reports : ∃ ds, bind sumUnit [] = .error ds ∧
    Occurrence.diagnostic ⟨⟨"first", ⟨10, 15⟩⟩, true, false⟩ sumClass sumMethod ∈ ds := by
  have hc : sumUnit.classes[0]? = some sumClass := rfl
  have hparse : (parse sumMethod.body).errors = [] := by decide +kernel
  have ho : ⟨⟨"first", ⟨10, 15⟩⟩, true, false⟩ ∈ occurrencesIn sumMethod := by decide +kernel
  exact (unknown_reported_iff hc (List.mem_singleton_self _) hparse ho rfl).2 rfl []

/-- The second is not: it is not looked into what a method without a result gives back. -/
theorem sumUnit_hides : ∃ o ∈ occurrencesIn sumMethod, (parse sumMethod.body).errors = [] ∧
    o.name = ⟨"second", ⟨24, 30⟩⟩ ∧ o.unknown = true ∧ ∃ ds, bind sumUnit [] = .error ds ∧
      ds.map Diagnostic.code = ["JS0103", "JS0127"] ∧ o.diagnostic sumClass sumMethod ∉ ds := by
  let o : Occurrence := ⟨⟨"second", ⟨24, 30⟩⟩, true, true⟩
  let unexpected := (Problem.unexpectedResult "Acme.Ledger.Run").toDiagnostic
    (some (Location.inBody "Acme" "Ledger" "Run" sumMethod.body o.name.span))
  let reported := Occurrence.diagnostic ⟨⟨"first", ⟨10, 15⟩⟩, true, false⟩ sumClass sumMethod
  have hnotes : (bindAll sumUnit []).notes = [reported, unexpected] := by decide +kernel
  have hbind : bind sumUnit [] = .error [reported, unexpected] := by
    rw [bind, hnotes]
    rfl
  exact ⟨o, by decide +kernel, by decide +kernel, rfl, rfl, _, hbind, rfl, by decide +kernel⟩

end Dossier.Script
