import Dossier.Proofs.Run.Sound
import Dossier.Proofs.Run.View

/-!
# Slots mean what names mean

Running bound code over slots is the same as running the syntax tree over names.

* `Shows` is the invariant: the declarations are tidy, and the frame has a value for each local in
  scope.  Every statement keeps it (`Shows.after`).
* `Resolved p u fuel` states, for each function of the two interpreters and at one fuel, that they
  are equal: the environment of the one is the view of the slots of the other, before and after.
* `resolved` joins the functions by induction on the fuel, as `sound` does, and
  `callMethod_named_eq` is the result for accepted units.

The two runs are equal as functions of the machine, so that values, failures and what is written are
the same, and so is the fuel that is needed.
-/

set_option autoImplicit false

namespace Dossier.Script

namespace Named

/-! ## The invariant -/

/-- The slots of a method's frame have values for what has been declared. -/
structure Shows (p : BoundProgram) (t : Activity) (d : Declared) (slots : Slots) : Prop where
  /-- The method can refer to what the program has. -/
  fits : t.surroundings.Fits p
  /-- The declarations are tidy. -/
  tidy : d.Tidy
  /-- Each local in scope has a value. -/
  frame : Frame t.site.bound.frameSize d.locals slots

namespace Shows

variable {p : BoundProgram} {t : Activity} {d : Declared} {slots : Slots}

theorem enter (h : Shows p t d slots) : Shows p t d.enter slots := ⟨h.fits, h.tidy.enter, h.frame⟩

theorem leaveTo (h : Shows p t d slots) {inner : Declared} (hle : d.frameSize ≤ inner.frameSize) :
    Shows p t (inner.leaveTo d) slots := ⟨h.fits, h.tidy.leaveTo hle, h.frame⟩

theorem below (h : Shows p t d slots) : ∀ l ∈ d.scopes.locals, l.slot < t.site.bound.frameSize :=
  fun _ hl ↦ h.frame.slot_lt hl

/-- Reading the slot of a local in scope gives what is seen of it. -/
theorem load_eq (h : Shows p t d slots) {l : Local} (hl : l ∈ d.locals) :
    Activation.load slots l.slot = pure (valueAt slots l.slot) := by
  obtain ⟨v, hv, -⟩ := h.frame.holds l hl
  simp only [Activation.load, valueAt, hv, Option.getD_some]

theorem store_eq (h : Shows p t d slots) {i : Nat} (hi : i < t.site.bound.frameSize) (v : Value) :
    Activation.store slots i v = pure (slots.setIfInBounds i v) := by
  rw [Activation.store, if_pos (h.frame.size_eq.symm ▸ hi)]

/-- The frame after a statement shows what has been declared by then. -/
theorem after (h : Shows p t d slots) {stmt : Stmt} {slots' : Slots}
    (ha : Frame t.site.bound.frameSize
      ((t.surroundings.bindStmt d stmt).value.1.known d.locals) slots') :
    Shows p t (t.surroundings.bindStmt d stmt).value.2 slots' := by
  rw [t.surroundings.known_bindStmt h.tidy.nonempty] at ha
  exact ⟨h.fits, h.tidy.bindStmt t.surroundings stmt, ha⟩

end Shows

/-! ## Simple statements -/

theorem declaredType?_of_clean {type : Option TypeName}
    (h : (Surroundings.bindTypeName? type).notes = []) :
    declaredType? type = some (Surroundings.bindTypeName? type).value := by
  cases type with
  | none => rfl
  | some type =>
    simp only [Surroundings.bindTypeName?, Surroundings.bindTypeName, Noted.notes_bind,
      Noted.notes_pure, List.append_nil] at h
    simp only [declaredType?, Surroundings.bindTypeName?, Surroundings.bindTypeName,
      Noted.value_bind, Noted.value_pure]
    split at h
    · simp [found] at h
    · rename_i type' _ htype
      rw [htype, Option.map_some]
      rfl
    · simp [found] at h

theorem bindAssign_clean {s : Surroundings} {scopes : Scopes} {op : AssignOp}
    {target value : Expr} (h : (s.bindAssign scopes op target value).notes = []) :
    ∃ n l, target = .name n ∧ scopes.find? n.text = some l ∧
      (s.bindExpr scopes value).notes = [] ∧
      (s.bindAssign scopes op target value).value =
        .assign l.slot l.type op.binary? (s.bindExpr scopes value).value := by
  simp only [Surroundings.bindAssign, Noted.notes_bind, List.append_eq_nil_iff] at h
  obtain ⟨hvalue, h⟩ := h
  cases target with
  | name n =>
    cases hl : scopes.find? n.text with
    | some l =>
      exact ⟨n, l, rfl, hl, hvalue, by simp [Surroundings.bindAssign, hl]⟩
    | none =>
      simp only [hl] at h
      exact absurd h (by simp [found])
  | _ => exact absurd h (by simp [found])

theorem bindGiveBack_clean {s : Surroundings} {scopes : Scopes} {value : Option Expr}
    {span : Text.Span} (h : (s.bindGiveBack scopes value span).notes = []) :
    (s.bindExpr? scopes value).notes = [] ∧
      (s.bindGiveBack scopes value span).value = .giveBack (s.bindExpr? scopes value).value := by
  unfold Surroundings.bindGiveBack at h ⊢
  split at h
  · exact absurd h (by simp [found])
  · exact absurd h (by simp [found])
  · simp only [Noted.notes_bind, Noted.notes_pure, List.append_nil] at h
    exact ⟨h, rfl⟩

/-! ## Parameters -/

theorem view_foldl_declare {slots : Slots} {ps : List BoundParam} {vs : List Value}
    (hlen : ps.length = vs.length) {d : Declared}
    (h : ∀ k v, vs[k]? = some v → valueAt slots (d.frameSize + k) = v) :
    view slots (ps.foldl (fun d q ↦ d.declare q.name (some q.type)) d).scopes =
      (ps.zip vs).foldl (fun env (q, v) ↦ env.declare q.name ⟨some q.type, v⟩)
        (view slots d.scopes) := by
  induction ps generalizing vs d with
  | nil => rfl
  | cons q qs ih =>
    cases vs with
    | nil => exact absurd hlen (by simp)
    | cons v vs =>
      have hv : valueAt slots d.frameSize = v := h 0 v rfl
      have hrest : ∀ k v', vs[k]? = some v' →
          valueAt slots ((d.declare q.name (some q.type)).frameSize + k) = v' := by
        intro k v' hk
        have := h (k + 1) v' hk
        rwa [← Nat.add_assoc, Nat.add_right_comm] at this
      rw [List.foldl_cons, List.zip_cons_cons, List.foldl_cons,
        ih (Nat.succ.inj hlen) hrest, ← hv]
      have hdeclare := view_declare slots d.scopes q.name ⟨d.frameSize, some q.type⟩
      exact congrArg (fun env ↦ List.foldl _ env (qs.zip vs)) hdeclare

/-- The frame at the start of a method shows its parameters. -/
theorem view_startSlots {m : BoundMethod} {vs : List Value} (h : Supply m.params vs) :
    view (m.startSlots vs) (Declared.ofParams m.params).scopes = Env.ofParams m.params vs := by
  refine view_foldl_declare (List.Forall₂.length_eq h) fun k v hk ↦ ?_
  have hlt := (List.getElem?_eq_some_iff.1 hk).1
  rw [Nat.zero_add, valueAt, BoundMethod.startSlots,
    Array.getElem?_append_left (by simpa using hlt)]
  simp [hk]

/-! ## The statement -/

/-- What is proved of the two interpreters at a fuel. -/
structure Resolved (p : BoundProgram) (u : CompileUnit) (fuel : Nat) : Prop where
  evaluate : ∀ {t : Activity} {d : Declared} {slots : Slots} (e : Expr), Shows p t d slots →
    (t.surroundings.bindExpr d.scopes e).notes = [] →
    Named.evaluate fuel u t (view slots d.scopes) e =
      Script.evaluate fuel (t.bound p) slots (t.surroundings.bindExpr d.scopes e).value
  evaluateTruth : ∀ {t : Activity} {d : Declared} {slots : Slots} (e : Expr), Shows p t d slots →
    (t.surroundings.bindExpr d.scopes e).notes = [] →
    Named.evaluateTruth fuel u t (view slots d.scopes) e =
      Script.evaluateTruth fuel (t.bound p) slots (t.surroundings.bindExpr d.scopes e).value
  evaluateArgs : ∀ {t : Activity} {d : Declared} {slots : Slots} (es : List Expr),
    Shows p t d slots → (t.surroundings.bindArgs d.scopes es).notes = [] →
    Named.evaluateArgs fuel u t (view slots d.scopes) es =
      Script.evaluateArgs fuel (t.bound p) slots (t.surroundings.bindArgs d.scopes es).value
  callMethod : ∀ (ci mi : Nat) (self : Value) (args : List Value),
    Named.callMethod fuel u ci mi self args = Script.callMethod fuel p ci mi self args
  runMethod : ∀ {t : Activity} {ci mi : Nat} (args : List Value), site? u ci mi = some t.site →
    Named.runMethod fuel u t args = Script.runMethod fuel (t.bound p) args
  execute : ∀ {t : Activity} {d : Declared} {slots : Slots} (stmt : Stmt), Shows p t d slots →
    (t.surroundings.bindStmt d stmt).value.2.frameSize ≤ t.site.bound.frameSize →
    (t.surroundings.bindStmt d stmt).notes = [] →
    Named.execute fuel u t (view slots d.scopes) stmt =
      Ending.ofSlots (t.surroundings.bindStmt d stmt).value.2.scopes <$>
        Script.execute fuel (t.bound p) slots (t.surroundings.bindStmt d stmt).value.1
  executeAll : ∀ {t : Activity} {d : Declared} {slots : Slots} (stmts : List Stmt),
    Shows p t d slots →
    (t.surroundings.bindStmts d stmts).value.2.frameSize ≤ t.site.bound.frameSize →
    (t.surroundings.bindStmts d stmts).notes = [] →
    Named.executeAll fuel u t (view slots d.scopes) stmts =
      Ending.ofSlots (t.surroundings.bindStmts d stmts).value.2.scopes <$>
        Script.executeAll fuel (t.bound p) slots (t.surroundings.bindStmts d stmts).value.1
  executeLoop : ∀ {t : Activity} {d : Declared} {slots : Slots} (condition : Expr)
    (body : List Stmt), Shows p t d slots →
    (t.surroundings.bindExpr d.scopes condition).notes = [] →
    (t.surroundings.bindStmts d.enter body).value.2.frameSize ≤ t.site.bound.frameSize →
    (t.surroundings.bindStmts d.enter body).notes = [] →
    Named.executeLoop fuel u t (view slots d.scopes) condition body =
      Ending.ofSlots d.scopes <$>
        Script.executeLoop fuel (t.bound p) slots
          (t.surroundings.bindExpr d.scopes condition).value
          (t.surroundings.bindStmts d.enter body).value.1

namespace Resolved

variable {p : BoundProgram} {u : CompileUnit} {fuel : Nat} {t : Activity} {d : Declared}
  {slots : Slots}

theorem zero (p : BoundProgram) (u : CompileUnit) : Resolved p u 0 where
  evaluate _ _ _ := rfl
  evaluateTruth _ _ _ := rfl
  evaluateArgs _ _ _ := rfl
  callMethod _ _ _ _ := rfl
  runMethod _ _ := rfl
  execute _ _ _ _ := rfl
  executeAll _ _ _ _ := rfl
  executeLoop _ _ _ _ _ _ := rfl

/-! ## Expressions -/

theorem evaluate_succ (ih : Resolved p u fuel) (e : Expr) (hd : Shows p t d slots)
    (h : (t.surroundings.bindExpr d.scopes e).notes = []) :
    Named.evaluate (fuel + 1) u t (view slots d.scopes) e =
      Script.evaluate (fuel + 1) (t.bound p) slots
        (t.surroundings.bindExpr d.scopes e).value := by
  cases e with
  | literal l => rfl
  | name n =>
    rw [Surroundings.bindExpr] at h ⊢
    cases hl : d.scopes.find? n.text with
    | none =>
      simp only [hl] at h
      exact absurd h (Surroundings.instead_ne_nil _ _)
    | some l =>
      simp only [Named.evaluate, find?_view, hl, Option.map_some]
      exact (hd.load_eq (Scopes.mem_locals_of_find? hl)).symm
  | self => rfl
  | unary op operand =>
    simp only [Surroundings.bindExpr, Noted.notes_bind, Noted.notes_pure, List.append_nil] at h
    simp only [Named.evaluate, ih.evaluate operand hd h]
    rfl
  | binary op left right =>
    simp only [Surroundings.bindExpr, Noted.notes_bind, Noted.notes_pure, List.append_nil,
      List.append_eq_nil_iff] at h
    have hl := ih.evaluate left hd h.1
    have hr := ih.evaluate right hd h.2
    have hlTruth := ih.evaluateTruth left hd h.1
    have hrTruth := ih.evaluateTruth right hd h.2
    cases op with
    | and | or =>
      simp only [Named.evaluate, hlTruth, hrTruth]
      rfl
    | _ =>
      simp only [Named.evaluate, hl, hr]
      rfl
  | member base member => exact absurd h (Surroundings.instead_ne_nil _ _)
  | call callee args =>
    simp only [Surroundings.bindExpr, Noted.notes_bind, List.append_eq_nil_iff] at h
    obtain ⟨target, htarget, hvalue, -⟩ := Surroundings.callExpr_clean h.2
    have htarget' : t.site.surroundings.target? (view slots d.scopes).has callee =
        some target := by
      rw [has_view]
      exact htarget
    simp only [Named.evaluate, ih.evaluateArgs args hd h.1, htarget', Surroundings.bindExpr,
      Noted.value_bind, hvalue]
    cases target with
    | method ci mi =>
      simp only [ih.callMethod]
      rfl
    | library m => rfl

theorem evaluateTruth_succ (ih : Resolved p u fuel) (e : Expr) (hd : Shows p t d slots)
    (h : (t.surroundings.bindExpr d.scopes e).notes = []) :
    Named.evaluateTruth (fuel + 1) u t (view slots d.scopes) e =
      Script.evaluateTruth (fuel + 1) (t.bound p) slots
        (t.surroundings.bindExpr d.scopes e).value := by
  simp only [Named.evaluateTruth, ih.evaluate e hd h]
  rfl

theorem evaluateArgs_succ (ih : Resolved p u fuel) (es : List Expr) (hd : Shows p t d slots)
    (h : (t.surroundings.bindArgs d.scopes es).notes = []) :
    Named.evaluateArgs (fuel + 1) u t (view slots d.scopes) es =
      Script.evaluateArgs (fuel + 1) (t.bound p) slots
        (t.surroundings.bindArgs d.scopes es).value := by
  cases es with
  | nil => rfl
  | cons e es =>
    simp only [Surroundings.bindArgs, Noted.notes_bind, Noted.notes_pure, List.append_nil,
      List.append_eq_nil_iff] at h
    simp only [Named.evaluateArgs, ih.evaluate e hd h.1, ih.evaluateArgs es hd h.2]
    rfl

/-! ## Calls -/

theorem callMethod_succ (ih : Resolved p u fuel) {refs : List String} (hb : bind u refs = .ok p)
    (ci mi : Nat) (self : Value) (args : List Value) :
    Named.callMethod (fuel + 1) u ci mi self args =
      Script.callMethod (fuel + 1) p ci mi self args := by
  funext w
  simp only [Named.callMethod, Script.callMethod, method?_of_bind hb]
  cases hsite : site? u ci mi with
  | none => rfl
  | some site =>
    simp only [Option.map_some]
    rw [ih.runMethod args hsite]
    rfl

theorem runMethod_succ (ih : Resolved p u fuel) {refs : List String} (hb : bind u refs = .ok p)
    {ci mi : Nat} (args : List Value) (ht : site? u ci mi = some t.site) :
    Named.runMethod (fuel + 1) u t args = Script.runMethod (fuel + 1) (t.bound p) args := by
  have hwf : t.site.bound.WellFormed p :=
    wellFormed_of_bind hb ci mi _ (by rw [method?_of_bind hb, ht, Option.map_some])
  have hclean := (accepted_of_bind hb ht).bodyClean
  simp only [Site.bodyNoted, Surroundings.bindBody, Noted.notes_bind, Noted.notes_pure,
    List.append_nil] at hclean
  simp only [Named.runMethod, Script.runMethod, Activation.slots, bind_assoc, pure_bind]
  rw [Activity.parameterSlots_bound]
  refine (t.voice.ends_parameterSlots t.site.surroundings.method.params args).bind_congr
    fun vs hvs ↦ ?_
  have hd : Shows p t (Declared.ofParams t.site.bound.params) (t.site.bound.startSlots vs) := by
    refine ⟨fits_of_bind hb ht, Declared.tidy_ofParams _, ?_⟩
    rw [Declared.locals_ofParams]
    exact frame_startSlots hwf hvs
  have hbody := ih.executeAll t.site.statements hd (Nat.le_refl _) hclean
  rw [view_startSlots hvs] at hbody
  show Named.executeAll fuel u t (Env.ofParams t.site.bound.params vs) t.site.statements >>= _ =
    _
  rw [hbody, bind_map_left]
  congr 1
  funext outcome
  obtain ⟨slots', flow⟩ := outcome
  cases flow <;> rfl

/-! ## Statements -/

theorem inScope_eq (ih : Resolved p u fuel) (body : List Stmt) (hd : Shows p t d slots)
    (hsize : (t.surroundings.bindStmts d.enter body).value.2.frameSize ≤ t.site.bound.frameSize)
    (h : (t.surroundings.bindStmts d.enter body).notes = []) :
    inScope (fun env ↦ Named.executeAll fuel u t env body) (view slots d.scopes) =
      Ending.ofSlots d.scopes <$>
        Script.executeAll fuel (t.bound p) slots
          (t.surroundings.bindStmts d.enter body).value.1 := by
  have hbody := ih.executeAll body hd.enter hsize h
  have htail : (t.surroundings.bindStmts d.enter body).value.2.scopes.tail = d.scopes :=
    t.surroundings.bindStmts_tail d.enter body
  rw [inScope]
  show Named.executeAll fuel u t (view slots d.enter.scopes) body >>= _ = _
  rw [hbody, bind_map_left, map_eq_pure_bind]
  congr 1
  funext outcome
  obtain ⟨slots', flow⟩ := outcome
  cases flow with
  | result v => rfl
  | next =>
    simp only [Ending.ofSlots, view, ← List.map_tail, htail]

theorem execute_declare (ih : Resolved p u fuel) {name : Name} {type : Option TypeName}
    {type' : Option ValueType} {init : Option Expr} {span : Text.Span} (hd : Shows p t d slots)
    (hsize : d.frameSize < t.site.bound.frameSize) (htype : declaredType? type = some type')
    (hinit : (t.surroundings.bindExpr? d.scopes init).notes = []) :
    Named.execute (fuel + 1) u t (view slots d.scopes) (.declare name type init span) =
      Ending.ofSlots (d.declare name.text type').scopes <$>
        Script.execute (fuel + 1) (t.bound p) slots
          (.declare d.frameSize type' (t.surroundings.bindExpr? d.scopes init).value) := by
  -- what follows the value is one step over names and two over slots
  have hstore (v : Value) : (do
      let v ← t.voice.initial type' v
      pure (.next ((view slots d.scopes).declare name.text ⟨type', v⟩)) : Run Ending) =
      Ending.ofSlots (d.declare name.text type').scopes <$> (do
        let v ← (t.bound p).initial type' v
        let slots ← Activation.store slots d.frameSize v
        pure (slots, Flow.next)) := by
    rw [map_bind]
    refine bind_congr fun v ↦ ?_
    have hfresh : ∀ l ∈ d.scopes.locals, l.slot ≠ d.frameSize :=
      fun l hl ↦ Nat.ne_of_lt (hd.tidy.taken l hl)
    rw [hd.store_eq hsize, pure_bind, map_pure, Ending.ofSlots]
    simp only [Declared.declare, view_declare, view_set hfresh]
    rw [valueAt_set_self (hd.frame.size_eq.symm ▸ hsize)]
  simp only [Named.execute, htype]
  cases init with
  | none =>
    cases type' with
    | none => exact hstore .null
    | some ty => exact hstore ty.defaultValue
  | some e =>
    have he : (t.surroundings.bindExpr d.scopes e).notes = [] := by
      simpa [Surroundings.bindExpr?] using hinit
    simp only [ih.evaluate e hd he]
    show _ = _ <$> (Script.evaluate fuel (t.bound p) slots _ >>= _)
    rw [map_bind]
    exact bind_congr hstore

theorem execute_assign (ih : Resolved p u fuel) {op : AssignOp} {target value : Expr}
    {span : Text.Span} (hd : Shows p t d slots)
    (h : (t.surroundings.bindAssign d.scopes op target value).notes = []) :
    Named.execute (fuel + 1) u t (view slots d.scopes) (.assign op target value span) =
      Ending.ofSlots d.scopes <$>
        Script.execute (fuel + 1) (t.bound p) slots
          (t.surroundings.bindAssign d.scopes op target value).value := by
  obtain ⟨n, l, rfl, hl, hclean, hbound⟩ := bindAssign_clean h
  have hmem := Scopes.mem_locals_of_find? hl
  have hlt := hd.below l hmem
  have hstore (v : Value) : (do
      let v ← t.voice.assigned l.type v
      pure (.next ((view slots d.scopes).assign n.text v)) : Run Ending) =
      Ending.ofSlots d.scopes <$> (do
        let v ← (t.bound p).assigned l.type v
        let slots ← Activation.store slots l.slot v
        pure (slots, Flow.next)) := by
    rw [map_bind]
    refine bind_congr fun v ↦ ?_
    rw [hd.store_eq hlt, pure_bind, map_pure, Ending.ofSlots,
      view_assign hl (hd.frame.size_eq.symm ▸ hlt) hd.tidy.apart]
  simp only [Named.execute, ih.evaluate value hd hclean, hbound, find?_view, hl, Option.map_some]
  show _ = _ <$> (Script.evaluate fuel (t.bound p) slots _ >>= _)
  rw [map_bind]
  refine bind_congr fun v ↦ ?_
  cases op.binary? with
  | none => exact hstore v
  | some op =>
    simp only [hd.load_eq hmem, pure_bind]
    rw [map_bind]
    exact bind_congr hstore

theorem execute_otherwise (ih : Resolved p u fuel) (hd : Shows p t d slots)
    (otherwise : Otherwise) :
    (t.surroundings.bindOtherwise d otherwise).value.2.frameSize ≤ t.site.bound.frameSize →
    (t.surroundings.bindOtherwise d otherwise).notes = [] →
    (match otherwise with
      | .nothing => Named.executeAll fuel u t (view slots d.scopes) []
      | .block body _ =>
        inScope (fun env ↦ Named.executeAll fuel u t env body) (view slots d.scopes)
      | .branch condition body bodySpan otherwise span =>
        Named.executeAll fuel u t (view slots d.scopes)
          [.branch condition body bodySpan otherwise span]) =
      Ending.ofSlots d.scopes <$>
        Script.executeAll fuel (t.bound p) slots
          (t.surroundings.bindOtherwise d otherwise).value.1 := by
  intro hsize h
  cases otherwise with
  | nothing => exact ih.executeAll [] hd hsize rfl
  | block body span =>
    simp only [Surroundings.bindOtherwise, Noted.notes_bind, Noted.notes_pure,
      List.append_nil] at h
    exact ih.inScope_eq body hd hsize h
  | branch condition body bodySpan otherwise span =>
    have hscopes := t.surroundings.bindOtherwise_scopes d
      (.branch condition body bodySpan otherwise span)
    have hall := ih.executeAll [.branch condition body bodySpan otherwise span] hd hsize
      (by simpa [Surroundings.bindStmts, Surroundings.bindStmt, Surroundings.bindOtherwise] using h)
    change _ = Ending.ofSlots (t.surroundings.bindOtherwise d
      (.branch condition body bodySpan otherwise span)).value.2.scopes <$> _ at hall
    rw [hscopes] at hall
    exact hall

/-- **A statement over names is its bound form over slots.** -/
theorem execute_succ (ih : Resolved p u fuel) (stmt : Stmt) (hd : Shows p t d slots)
    (hsize : (t.surroundings.bindStmt d stmt).value.2.frameSize ≤ t.site.bound.frameSize)
    (h : (t.surroundings.bindStmt d stmt).notes = []) :
    Named.execute (fuel + 1) u t (view slots d.scopes) stmt =
      Ending.ofSlots (t.surroundings.bindStmt d stmt).value.2.scopes <$>
        Script.execute (fuel + 1) (t.bound p) slots
          (t.surroundings.bindStmt d stmt).value.1 := by
  cases stmt with
  | declare name type init span =>
    simp only [Surroundings.bindStmt, Surroundings.bindDeclare, Noted.notes_bind,
      List.append_eq_nil_iff] at h
    exact ih.execute_declare hd hsize (declaredType?_of_clean h.1) h.2.1
  | assign op target value span =>
    simp only [Surroundings.bindStmt, Noted.notes_bind, Noted.notes_pure, List.append_nil] at h
    exact ih.execute_assign hd h
  | giveBack value span =>
    simp only [Surroundings.bindStmt, Noted.notes_bind, Noted.notes_pure, List.append_nil] at h
    obtain ⟨hclean, hbound⟩ := bindGiveBack_clean h
    simp only [Surroundings.bindStmt, Noted.value_bind, Noted.value_pure, hbound]
    cases value with
    | none => rfl
    | some e =>
      simp only [Surroundings.bindExpr?, Noted.notes_bind, Noted.notes_pure, List.append_nil]
        at hclean
      simp only [Named.execute, ih.evaluate e hd hclean]
      show _ = _ <$> (Script.evaluate fuel (t.bound p) slots _ >>= _)
      rw [map_bind]
      rfl
  | branch condition body bodySpan otherwise span =>
    simp only [Surroundings.bindStmt, Noted.notes_bind, Noted.notes_pure, List.append_nil,
      List.append_eq_nil_iff] at h
    obtain ⟨hc, hbody, hotherwise⟩ := h
    have hinner := (t.surroundings.takes_bindStmts d.enter body).le
    have houter := (t.surroundings.takes_bindOtherwise
      ((t.surroundings.bindStmts d.enter body).value.2.leaveTo d) otherwise).le
    have hthen := ih.inScope_eq body hd (Nat.le_trans houter hsize) hbody
    have helse := ih.execute_otherwise (hd.leaveTo hinner) otherwise hsize hotherwise
    have hscopes := t.surroundings.bindOtherwise_scopes
      ((t.surroundings.bindStmts d.enter body).value.2.leaveTo d) otherwise
    simp only [Named.execute, ih.evaluateTruth condition hd hc]
    show _ = Ending.ofSlots (t.surroundings.bindOtherwise
      ((t.surroundings.bindStmts d.enter body).value.2.leaveTo d) otherwise).value.2.scopes <$>
        (Script.evaluateTruth fuel (t.bound p) slots _ >>= _)
    rw [hscopes, map_bind]
    refine bind_congr fun b ↦ ?_
    cases b with
    | true => exact hthen
    | false => exact helse
  | loop condition body bodySpan span =>
    simp only [Surroundings.bindStmt, Noted.notes_bind, Noted.notes_pure, List.append_nil,
      List.append_eq_nil_iff] at h
    exact ih.executeLoop condition body hd h.1 hsize h.2
  | throw value span =>
    simp only [Surroundings.bindStmt, Noted.notes_bind, Noted.notes_pure, List.append_nil] at h
    simp only [Named.execute, ih.evaluate value hd h]
    show _ = _ <$> (Script.evaluate fuel (t.bound p) slots _ >>= _)
    rw [map_bind]
    rfl
  | block body span =>
    simp only [Surroundings.bindStmt, Noted.notes_bind, Noted.notes_pure, List.append_nil] at h
    exact ih.inScope_eq body hd hsize h
  | expr e span =>
    simp only [Surroundings.bindStmt, Noted.notes_bind, Noted.notes_pure, List.append_nil,
      List.append_eq_nil_iff] at h
    simp only [Named.execute, ih.evaluate e hd h.2]
    show _ = _ <$> (Script.evaluate fuel (t.bound p) slots _ >>= _)
    rw [map_bind]
    rfl

theorem executeAll_succ (ih : Resolved p u fuel) (hp : p.WellFormed) (stmts : List Stmt)
    (hd : Shows p t d slots)
    (hsize : (t.surroundings.bindStmts d stmts).value.2.frameSize ≤ t.site.bound.frameSize)
    (h : (t.surroundings.bindStmts d stmts).notes = []) :
    Named.executeAll (fuel + 1) u t (view slots d.scopes) stmts =
      Ending.ofSlots (t.surroundings.bindStmts d stmts).value.2.scopes <$>
        Script.executeAll (fuel + 1) (t.bound p) slots
          (t.surroundings.bindStmts d stmts).value.1 := by
  cases stmts with
  | nil => rfl
  | cons first rest =>
    simp only [Surroundings.bindStmts, Noted.notes_bind, Noted.notes_pure, List.append_nil,
      List.append_eq_nil_iff] at h
    -- the rest is run on slots of which only the invariant is known, hence `Ends.bind_congr`
    have hrest := (t.surroundings.takes_bindStmts (t.surroundings.bindStmt d first).value.2 rest).le
    have hfirst := Nat.le_trans hrest hsize
    have hwf := Surroundings.wellFormed_bindStmt hd.fits hd.tidy first hfirst h.1
    have hends := (sound hp fuel).execute (a := t.bound p) rfl hd.frame hwf
    simp only [Named.executeAll, ih.execute first hd hfirst h.1]
    show _ = _ <$> (Script.execute fuel (t.bound p) slots _ >>= _)
    rw [bind_map_left, map_bind]
    refine hends.bind_congr fun outcome hafter ↦ ?_
    obtain ⟨slots', flow⟩ := outcome
    cases flow with
    | next => exact ih.executeAll rest (hd.after hafter) hsize h.2
    | result v => rfl

theorem executeLoop_succ (ih : Resolved p u fuel) (hp : p.WellFormed) (condition : Expr)
    (body : List Stmt) (hd : Shows p t d slots)
    (hc : (t.surroundings.bindExpr d.scopes condition).notes = [])
    (hsize : (t.surroundings.bindStmts d.enter body).value.2.frameSize ≤ t.site.bound.frameSize)
    (hbody : (t.surroundings.bindStmts d.enter body).notes = []) :
    Named.executeLoop (fuel + 1) u t (view slots d.scopes) condition body =
      Ending.ofSlots d.scopes <$>
        Script.executeLoop (fuel + 1) (t.bound p) slots
          (t.surroundings.bindExpr d.scopes condition).value
          (t.surroundings.bindStmts d.enter body).value.1 := by
  have hwf := Surroundings.wellFormed_bindStmts hd.fits hd.tidy.enter body hsize hbody
  have hends := (sound hp fuel).executeAll (a := t.bound p) rfl hd.frame hwf
  simp only [Named.executeLoop, ih.evaluateTruth condition hd hc, ih.inScope_eq body hd hsize hbody]
  show _ = _ <$> (Script.evaluateTruth fuel (t.bound p) slots _ >>= _)
  rw [map_bind]
  congr 1
  funext b
  cases b with
  | false => rfl
  | true =>
    simp only [if_true]
    rw [bind_map_left, map_bind]
    refine hends.bind_congr fun outcome hframe ↦ ?_
    obtain ⟨slots', flow⟩ := outcome
    cases flow with
    | next => exact ih.executeLoop condition body ⟨hd.fits, hd.tidy, hframe⟩ hc hsize hbody
    | result v => rfl

end Resolved

/-- **The two interpreters agree** on an accepted unit, however much fuel there is. -/
theorem resolved {p : BoundProgram} {u : CompileUnit} {refs : List String}
    (hb : bind u refs = .ok p) (fuel : Nat) : Resolved p u fuel := by
  have hp := wellFormed_of_bind hb
  induction fuel with
  | zero => exact .zero p u
  | succ fuel ih =>
    exact {
      evaluate := ih.evaluate_succ
      evaluateTruth := ih.evaluateTruth_succ
      evaluateArgs := ih.evaluateArgs_succ
      callMethod := ih.callMethod_succ hb
      runMethod := ih.runMethod_succ hb
      execute := ih.execute_succ
      executeAll := ih.executeAll_succ hp
      executeLoop := ih.executeLoop_succ hp }

end Named

/-! ## The result -/

/-- A run over names finds every name that it looks up: its declaration has run before. -/
theorem callMethod_named_ne_stuck {u : CompileUnit} {refs : List String} {p : BoundProgram}
    (h : bind u refs = .ok p) {ci mi : Nat} {m : BoundMethod} (hm : p.method? ci mi = some m)
    (fuel : Nat) (self : Value) (args : List Value) (w w' : Machine) :
    Named.callMethod fuel u ci mi self args w ≠ .error .stuck w' := by
  rw [(Named.resolved h fuel).callMethod]
  intro hstuck
  exact ((sound (wellFormed_of_bind h) fuel).callMethod self args hm).error hstuck

/-- **Running slots is running names.**  A call of any method of an accepted unit, with any
instance, arguments and fuel and on any machine, gives the same value, fails in the same way and
writes the same, whether its body is run as bound code over the slots of frames or as a syntax tree
over scopes of names. -/
theorem callMethod_named_eq {u : CompileUnit} {refs : List String} {p : BoundProgram}
    (h : bind u refs = .ok p) (fuel ci mi : Nat) (self : Value) (args : List Value) (w : Machine) :
    Named.callMethod fuel u ci mi self args w = callMethod fuel p ci mi self args w :=
  congrFun ((Named.resolved h fuel).callMethod ci mi self args) w

/-- The loop of the small unit does over names what it does over slots. -/
theorem smallUnit_named_eq :
    Named.callMethod ampleFuel smallUnit 0 1 (.object "Shop.Till") [] .fresh =
      callMethod ampleFuel (bindAll smallUnit []).value 0 1 (.object "Shop.Till") [] .fresh :=
  callMethod_named_eq bind_smallUnit ampleFuel 0 1 (.object "Shop.Till") [] .fresh

end Dossier.Script
