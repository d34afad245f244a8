import Dossier.Proofs.Parse.Numbers
import Dossier.Proofs.Run.Failures
import Dossier.Proofs.Run.Omitted
import Dossier.Proofs.Run.Points

/-!
# Numbers that are written back

The text of a whole number, written into a program, stands for the number again.

* `DefaultsBack n`: it does so as the default of a parameter.
* `ReturnsBack n`: it does so in a method that returns it.  Nothing is wrong with such a method, and
  every call of it that starts gives the number.
* `writtenBack_iff` is the result: both hold for every number but the least one.  The minus sign is
  no part of a literal, and the digits of the least number, without it, are too large for one.
-/

set_option autoImplicit false

namespace Dossier.Script

open Text (Span)

/-! ## A number as a constant -/

theorem IsNumber.constant {e : Expr} {n : Int64} (h : IsNumber e n) :
    e.constant? = some (.int n) := by
  cases h <;> rfl

/-- **An expression that is the text of a number** is parsed as the number. -/
theorem parseExpr_intText {n : Int64} (hn : n ≠ Int64.minValue) :
    ∃ e, parseExpr (tokenize (Value.int n).text) = .ok e ∧ IsNumber e n := by
  have hkinds := kindsOf_intText n.toInt [] (by simp [EndsNumber])
  rw [List.append_nil] at hkinds
  obtain ⟨front, rest, htokens, hfront, hrest⟩ := List.map_eq_append_iff.1 hkinds
  have hdone : (current rest).kind = .done := by
    obtain ⟨span, us, rfl, -⟩ := exists_of_map_kind hrest
    rfl
  obtain ⟨e, he, hnumber⟩ := expression_number hn 254 hfront (.inl hdone)
  refine ⟨e, ?_, hnumber⟩
  have hparse : ExprLevel.outermost.expression (tokenize (Value.int n).text) = .ok (e, rest) := by
    rw [tokenize, Value.text, htokens]
    exact he
  simp only [parseExpr, hparse, atEnd, hdone, beq_self_eq_true, if_true]

/-- The text of the number, as a default of a parameter of its type, stands for the number. -/
def DefaultsBack (n : Int64) : Prop :=
  ∀ parameter method,
    bindDefault parameter method .int (Value.int n).text = ⟨some (.int n), []⟩

theorem defaultsBack_of_ne {n : Int64} (hn : n ≠ Int64.minValue) : DefaultsBack n := by
  intro parameter method
  obtain ⟨e, he, hnumber⟩ := parseExpr_intText hn
  have hvalue : defaultValue? (Value.int n).text = some (.int n) := by
    rw [defaultValue?, he]
    exact hnumber.constant
  rw [bindDefault, hvalue]
  rfl

/-! ## A number as a result -/

/-- The bodies that return what the text stands for. -/
def returnBodies (text : String) : List String := ["return " ++ text, "return " ++ text ++ ";"]

theorem kindsOf_returning (n : Int) (rest : List Char) (hrest : EndsNumber rest) :
    kindsOf ("return".toList ++ ' ' :: ((Number.intText n).toList ++ rest)) =
      .keyword .returnWord :: (numberKinds n ++ kindsOf rest) := by
  have hword : IsWord "return" (.keyword .returnWord) := ⟨by decide +kernel, nofun⟩
  rw [hword.kindsOf_append (.inl rfl), kindsOf_intText n rest hrest]

/-- The tokens of such a body. -/
theorem kindsOf_returnBodies {n : Int64} {body : String}
    (h : body ∈ returnBodies (Value.int n).text) :
    ∃ closing, (tokenize body).map Token.kind =
        .keyword .returnWord :: (numberKinds n.toInt ++ closing) ∧
      (closing = [.done] ∨ closing = [.symbol .semicolon, .done]) := by
  have hreturn : "return ".toList = "return".toList ++ [' '] := rfl
  simp only [returnBodies, List.mem_cons, List.not_mem_nil, or_false] at h
  rcases h with rfl | rfl
  · refine ⟨[.done], ?_, .inl rfl⟩
    rw [tokenize, String.toList_append, hreturn, List.append_assoc]
    have hkinds := kindsOf_returning n.toInt [] (by simp [EndsNumber])
    rw [List.append_nil] at hkinds
    exact hkinds
  · refine ⟨[.symbol .semicolon, .done], ?_, .inr rfl⟩
    have hends : EndsNumber [';'] := by
      rintro c ⟨⟩
      decide
    rw [tokenize, String.toList_append, String.toList_append, hreturn, List.append_assoc,
      List.append_assoc]
    exact kindsOf_returning n.toInt _ hends

/-- Behind the number the statement, and with it the body, comes to its end. -/
theorem exists_takeEnd {closing : List TokenKind} {ts : List Token}
    (h : ts.map Token.kind = closing)
    (hclosing : closing = [.done] ∨ closing = [.symbol .semicolon, .done]) :
    ClosesExpr ts ∧ ∃ rest, StmtLevel.takeEnd ts = .ok ((), rest) ∧ atEnd rest = true := by
  subst h
  rcases hclosing with h | h
  · obtain ⟨span, us, rfl, -⟩ := exists_of_map_kind h
    exact ⟨.inl rfl, _, rfl, rfl⟩
  · obtain ⟨span, us, rfl, hus⟩ := exists_of_map_kind h
    obtain ⟨span', us, rfl, -⟩ := exists_of_map_kind hus
    exact ⟨.inr rfl, _, rfl, rfl⟩

/-- A number starts with no end of a statement. -/
theorem current_number {n : Int} {ts : List Token} (h : ts.map Token.kind = numberKinds n)
    (rest : List Token) :
    atSymbol .semicolon (ts ++ rest) = false ∧ atEnd (ts ++ rest) = false := by
  rw [numberKinds] at h
  split at h <;>
    · obtain ⟨span, us, rfl, -⟩ := exists_of_map_kind h
      exact ⟨rfl, rfl⟩

/-- **A body that returns the text of a number** is one statement that returns the number. -/
theorem parse_returning {n : Int64} (hn : n ≠ Int64.minValue) {body : String}
    (h : body ∈ returnBodies (Value.int n).text) :
    ∃ e span, parse body = ⟨[.giveBack (some e) span], []⟩ ∧ IsNumber e n := by
  obtain ⟨closing, hkinds, hclosing⟩ := kindsOf_returnBodies h
  obtain ⟨start, us, hbody, hus⟩ := exists_of_map_kind hkinds
  obtain ⟨front, back, rfl, hfront, hback⟩ := List.map_eq_append_iff.1 hus
  obtain ⟨hends, rest, hend, hdone⟩ := exists_takeEnd hback hclosing
  obtain ⟨e, he, hnumber⟩ := expression_number hn 254 hfront hends
  have hstarts := current_number hfront back
  have hgive : StmtLevel.giveBack StmtLevel.outermost.exprs start (front ++ back) =
      .ok (.giveBack (some e) (start.cover e.span), rest) := by
    have hexpr : StmtLevel.outermost.exprs.expression (front ++ back) = .ok (e, back) := by
      rw [StmtLevel.outermost, StmtLevel.exprs_ofRoom]
      exact he
    simp only [StmtLevel.giveBack, hstarts.1, hstarts.2, Bool.or_self, Bool.false_eq_true,
      if_false, hexpr]
    show (StmtLevel.takeEnd back >>= fun r ↦
      Except.ok (Stmt.giveBack (some e) (start.cover e.span), r.2)) = _
    rw [hend]
    rfl
  have hstatement : StmtLevel.outermost.statement (tokenize body) =
      .ok (.giveBack (some e) (start.cover e.span), rest) := by
    rw [hbody]
    exact hgive
  have hlength : (tokenize body).length = (front ++ back).length + 1 := by rw [hbody]; rfl
  have hmore (fuel : Nat) : parseStatements fuel rest = ⟨[], []⟩ := by
    cases fuel with
    | zero => rfl
    | succ fuel => rw [parseStatements, if_pos hdone]
  have hfirst : atEnd (tokenize body) = false := by rw [hbody]; rfl
  refine ⟨e, start.cover e.span, ?_, hnumber⟩
  rw [parse, parseTokens, hlength, parseStatements, hfirst, hstatement]
  simp only [Bool.false_eq_true, if_false, hmore]

/-- The body of the method returns the text of the number, and its result has the number's type. -/
structure Site.Returns (t : Site) (n : Int64) : Prop where
  body : t.method.body ∈ returnBodies (Value.int n).text
  returns : t.surroundings.method.returns = .int

namespace Site.Returns

variable {t : Site} {n : Int64}

/-- The statement is bound to one that always gives the number. -/
theorem exists_bound (h : t.Returns n) (hn : n ≠ Int64.minValue) :
    (parse t.method.body).errors = [] ∧ ∃ b, t.bound.body = [.giveBack (some b)] ∧
      t.bodyNoted.notes = [] ∧ b.AlwaysGives (.int n) := by
  obtain ⟨e, span, hparse, hnumber⟩ := parse_returning hn h.body
  have hfolds := Expr.folds_of_constant hnumber.constant
  have hvoid : (t.surroundings.method.returns == .void) = false := by
    rw [h.returns]
    rfl
  have hgive (scopes : Scopes) : t.surroundings.bindGiveBack scopes (some e) span =
      ⟨.giveBack (some (t.surroundings.bindExpr scopes e).value), []⟩ := by
    have hnotes := t.surroundings.notes_bindExpr_of_folds scopes hfolds
    unfold Surroundings.bindGiveBack
    rw [hvoid]
    refine congrArg (Noted.mk _) ?_
    simp [Surroundings.bindExpr?, hnotes]
  refine ⟨by rw [hparse], (t.surroundings.bindExpr _ e).value, ?_, ?_,
    alwaysGives_bindExpr t.surroundings
      (Declared.ofParams t.surroundings.method.params).scopes hfolds⟩
  · simp only [bound, bodyNoted, statements, hparse, Surroundings.bindBody, Surroundings.bindStmts,
      Surroundings.bindStmt, hgive, Noted.value_bind, Noted.value_pure]
  · simp only [bodyNoted, statements, hparse, Surroundings.bindBody, Surroundings.bindStmts,
      Surroundings.bindStmt, hgive, Noted.notes_bind, Noted.notes_pure, List.append_nil]

/-- **Nothing is wrong with the method.** -/
theorem notes_bind (h : t.Returns n) (hn : n ≠ Int64.minValue) (name : String) :
    (t.bind name).notes = [] := by
  obtain ⟨herrors, b, hbody, hnotes, -⟩ := h.exists_bound hn
  have hclean : (t.surroundings.bindBody (parse t.method.body).statements).notes = [] := hnotes
  have hexits : (t.surroundings.bindBody (parse t.method.body).statements).value.body =
      [.giveBack (some b)] := hbody
  simp [Site.bind, bindMethod, herrors, hclean, hexits, anyAlwaysExits, BoundStmt.alwaysExits]

/-- **A call that starts gives the number.** -/
theorem callMethod_eq (h : t.Returns n) (hn : n ≠ Int64.minValue) {p : BoundProgram} {ci mi : Nat}
    (hm : p.method? ci mi = some t.bound) {self : Value} {args : List Value} {w : Machine}
    {pt : Point} (hstarts : Starts (calleeOf p t.bound self) args w pt) :
    ∃ k, ∀ fuel, k ≤ fuel → callMethod fuel p ci mi self args w = .ok (.int n) w := by
  obtain ⟨-, b, hbody, -, k, hk⟩ := h.exists_bound hn
  obtain ⟨hroom, slots, w', hslots, -⟩ := hstarts
  -- taking the arguments leaves the machine as it is
  obtain rfl : { w with depth := w.depth + 1 } = w' := by
    rw [Activation.slots, Activation.parameterSlots_eq_lift] at hslots
    obtain ⟨vs, w₁, hvs, hpure⟩ := exists_of_bind_ok hslots
    cases hpure
    cases hvalues : parameterValues (calleeOf p t.bound self).method.params args with
    | ok vs' =>
      rw [hvalues] at hvs
      cases hvs
      rfl
    | error fault =>
      rw [hvalues] at hvs
      cases hvs
  refine ⟨k + 4, fun fuel hfuel ↦ ?_⟩
  obtain ⟨fuel, rfl⟩ := Nat.exists_eq_add_of_le' hfuel
  have hexecute : executeAll (fuel + k + 2) (calleeOf p t.bound self) slots
      (calleeOf p t.bound self).method.body = pure (slots, .result (.int n)) := by
    show executeAll (fuel + k + 2) (calleeOf p t.bound self) slots t.bound.body = _
    rw [hbody, executeAll, execute, hk (fuel + k) (Nat.le_add_left k fuel)]
    rfl
  have hreturns : t.bound.returns = .int := h.returns
  have hrun : runMethod (fuel + k + 3) (calleeOf p t.bound self) args
      { w with depth := w.depth + 1 } = .ok (.int n) { w with depth := w.depth + 1 } := by
    rw [runMethod]
    refine (bind_of_ok hslots).trans ?_
    rw [hexecute]
    show (if t.bound.returns = .void then pure .void else
      (calleeOf p t.bound self).coerce t.bound.returns (.int n) : Run Value) _ = _
    rw [hreturns]
    rfl
  show callMethod (fuel + k + 3 + 1) p ci mi self args w = _
  rw [callMethod_of_room hm hroom, hrun]
  rfl

end Site.Returns

/-- Nothing is wrong with a method that returns the text of the number, and in every unit that is
bound a call of it that starts gives the number, from some fuel on. -/
structure ReturnsBack (n : Int64) : Prop where
  clean : ∀ t : Site, t.Returns n → ∀ name, (t.bind name).notes = []
  gives : ∀ {u : CompileUnit} {refs : List String} {p : BoundProgram}, bind u refs = .ok p →
    ∀ {ci mi : Nat} {t : Site}, site? u ci mi = some t → t.Returns n →
    ∀ {self : Value} {args : List Value} {w : Machine} {pt : Point},
      Starts (calleeOf p t.bound self) args w pt →
      ∃ k, ∀ fuel, k ≤ fuel → callMethod fuel p ci mi self args w = .ok (.int n) w

theorem returnsBack_of_ne {n : Int64} (hn : n ≠ Int64.minValue) : ReturnsBack n where
  clean _ h := h.notes_bind hn
  gives hbind _ _ _ ht h _ _ _ _ hstarts :=
    h.callMethod_eq hn (by rw [method?_of_bind hbind, ht, Option.map_some]) hstarts

/-! ## The least number -/

/-- The text of the least number is no constant. -/
theorem isNone_defaultValue_least :
    (defaultValue? (Value.int Int64.minValue).text).isNone = true := by decide +kernel

/-- A program with a method that returns the least number. -/
def leastUnit : CompileUnit :=
  ⟨[⟨"Acme", [], [⟨"Widget", .everyone, false,
    [⟨"Main", .everyone, true, "int", [], "return -9223372036854775808"⟩]⟩]⟩]⟩

theorem leastUnit_returns : ∃ t, site? leastUnit 0 0 = some t ∧ t.Returns Int64.minValue := by
  refine ⟨_, rfl, ?_, rfl⟩
  show "return -9223372036854775808" ∈ returnBodies (Value.int Int64.minValue).text
  decide +kernel

/-- **Every number but the least one can be written back**, as a default and as a result. -/
theorem writtenBack_iff (n : Int64) :
    (DefaultsBack n ↔ n ≠ Int64.minValue) ∧ (ReturnsBack n ↔ n ≠ Int64.minValue) := by
  refine ⟨⟨?_, defaultsBack_of_ne⟩, ⟨?_, returnsBack_of_ne⟩⟩
  · rintro h rfl
    have hnone := Option.isNone_iff_eq_none.1 isNone_defaultValue_least
    have hback := h "" ""
    rw [bindDefault, hnone] at hback
    cases hback
  · rintro h rfl
    obtain ⟨t, ht, hreturns⟩ := leastUnit_returns
    cases ht
    have haccepted := Site.accepted_of_bind rfl (h.clean _ hreturns "Widget")
    have hparsed : (parse "return -9223372036854775808").errors = [] := haccepted.parsed
    have herrors : (parse "return -9223372036854775808").errors.isEmpty = false := by
      decide +kernel
    rw [hparsed] at herrors
    cases herrors

/-- A program with the number above the least one, as a default and as a result. -/
def lowestUnit : CompileUnit :=
  ⟨[⟨"Acme", [], [⟨"Widget", .everyone, false,
    [⟨"Size", .owner, true, "int", [⟨"int", "size", some "-9223372036854775807"⟩],
      "return size;"⟩,
      ⟨"Main", .everyone, true, "int", [], "return -9223372036854775807;"⟩]⟩]⟩]⟩

theorem bind_lowestUnit : bind lowestUnit [] = .ok (bindAll lowestUnit []).value :=
  bind_of_clean (by decide +kernel)

/-- The number is what the default is bound to, and what the method returns. -/
theorem lowestUnit_writes_back :
    bindDefault "size" "Acme.Widget.Size" .int "-9223372036854775807" =
      ⟨some (.int (-9223372036854775807)), []⟩ ∧
    ∃ k, ∀ fuel, k ≤ fuel →
      callMethod fuel (bindAll lowestUnit []).value 0 1 .null [] .fresh =
        .ok (.int (-9223372036854775807)) .fresh := by
  have hne : (-9223372036854775807 : Int64) ≠ Int64.minValue := by decide
  have htext : (Value.int (-9223372036854775807)).text = "-9223372036854775807" := by
    decide +kernel
  obtain ⟨hdefault, hresult⟩ := writtenBack_iff (-9223372036854775807)
  constructor
  · have h := hdefault.2 hne "size" "Acme.Widget.Size"
    rwa [htext] at h
  · obtain ⟨t, ht, hreturns, hparams⟩ : ∃ t, site? lowestUnit 0 1 = some t ∧
        t.Returns (-9223372036854775807) ∧ t.bound.params = [] := by
      refine ⟨_, rfl, ⟨?_, rfl⟩, rfl⟩
      show "return -9223372036854775807;" ∈
        returnBodies (Value.int (-9223372036854775807)).text
      decide +kernel
    exact (hresult.2 hne).gives bind_lowestUnit ht hreturns
      (starts_of_params_eq_nil _ hparams .null (by decide))

/-- The unit with the least number is refused, since its only literal is too large; and the text is
no default either. -/
theorem leastUnit_refused :
    (∃ t, site? leastUnit 0 0 = some t ∧ t.Returns Int64.minValue) ∧
    (∃ ds, bind leastUnit [] = .error ds ∧
      ds.map Diagnostic.message = ["Integral constant is too large"]) ∧
    (bindDefault "size" "Acme.Widget.Main" .int (Value.int Int64.minValue).text).notes =
      [.defaultNotConstant "size" "Acme.Widget.Main"] := by
  refine ⟨leastUnit_returns, ⟨(bindAll leastUnit []).notes, ?_, ?_⟩, ?_⟩
  · have hnotes : (bindAll leastUnit []).notes.isEmpty = false := by decide +kernel
    rw [bind, hnotes]
    rfl
  · decide +kernel
  · rw [bindDefault, Option.isNone_iff_eq_none.1 isNone_defaultValue_least]
    rfl

end Dossier.Script
