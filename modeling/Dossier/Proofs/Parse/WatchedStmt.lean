import Dossier.Proofs.Parse.Append
import Dossier.Proofs.Parse.WatchedExpr

/-!
# Statements under watch

The parsers of statements come to the outcomes of their levels from some number of rounds on, like those
of expressions, and so does the loop over the statements of a body (`Watched.settles_body`).

Every loop has its own reason to end: the names of a type are behind points, and a block and a body are
parsed statement by statement, each of which takes a token off (`StmtLevel.consumes_statement`).  Where
a statement cannot be parsed, what is taken off instead is what `afterStatement` passes over.
-/

set_option autoImplicit false

namespace Dossier.Script

namespace Watched

variable {α : Type} {ts : List Token} {depth : Nat}

/-! ## Simple statements -/

theorem returns_takeEnd (ts : List Token) (depth : Nat) :
    Returns depth (fun _ ↦ takeEnd ⟨ts, depth⟩) (StmtLevel.takeEnd ts) := by
  simp only [takeEnd]
  rw [StmtLevel.takeEnd]
  refine .ite (fun hsemicolon ↦ ?_) fun _ ↦ .ite (fun _ ↦ .ok _ _) fun _ ↦ .refuse _ ts depth
  exact returns_cut (ne_nil_of_atSymbol hsemicolon) (.ok _ _)

/-- The names of a type are taken off like they were found. -/
theorem returns_path {segments : List Name} {us : List Token} (h : PathDerives segments us)
    {rest : List Token} (hrest : atSymbol .dot rest = false) :
    ∃ first more tail, segments = first :: more ∧
      takeName ⟨us ++ rest, depth⟩ = .ok (first, ⟨tail, depth⟩) ∧
      Returns depth (fun n ↦ moreNames n ⟨tail, depth⟩) (.ok (more, rest)) := by
  induction h with
  | single n =>
    refine ⟨n, [], rest, rfl, rfl, .of_succ ?_⟩
    simp only [moreNames, hrest, Bool.false_eq_true, if_false]
    exact .ok _ _
  | @cons path us n point _ ih =>
    obtain ⟨first, more, tail, rfl, hfirst, hmore⟩ := ih
    refine ⟨n, first :: more, _, rfl, rfl, .of_succ ?_⟩
    refine returns_takeSymbol_at rfl ?_
    refine Returns.bind_ok (.const hfirst) ?_
    exact hmore.bind_ok (.ok _ _)

section Simple

variable {e : Nat → Watched Expr} {exprs : ExprLevel}
variable (he : ∀ ts, Returns depth (fun n ↦ e n ⟨ts, depth⟩) (exprs.expression ts))
include he

theorem returns_untyped (hne : ts ≠ []) : Returns depth (fun n ↦ untyped (e n) ⟨ts, depth⟩)
    (StmtLevel.untyped exprs (current ts).span (ts.drop 1)) := by
  refine returns_cut hne ?_
  refine (returns_takeName _ depth).bind fun name ts _ ↦ ?_
  refine (returns_takeSymbol .assign ts depth).bind fun _ ts _ ↦ ?_
  refine (he ts).bind fun init ts _ ↦ ?_
  exact (returns_takeEnd ts depth).bind fun _ _ _ ↦ .ok _ _

theorem returns_typed {segments : List Name} {name : Name} {rest : List Token}
    (h : StmtLevel.declarationHead? ts = some (segments, name, rest)) :
    Returns depth (fun n ↦ typed (e n) n ⟨ts, depth⟩)
      (StmtLevel.typed exprs segments name rest) := by
  obtain ⟨us, hpath, rfl⟩ := StmtLevel.declarationHead?_eq_some h
  have hname : atSymbol .dot (⟨.name name.text, name.span⟩ :: rest) = false := rfl
  obtain ⟨first, more, tail, rfl, hfirst, hmore⟩ := returns_path hpath hname
  refine Returns.bind_ok (.const hfirst) ?_
  refine hmore.bind_ok ?_
  refine Returns.bind_ok (.ok name rest) ?_
  refine .ite (fun hmark ↦ returns_takeSymbol_at hmark ?_) fun _ ↦ ?_
  · refine (he _).bind fun init ts _ ↦ ?_
    exact (returns_takeEnd ts depth).bind fun _ _ _ ↦ .ok _ _
  · exact (returns_takeEnd rest depth).bind fun _ _ _ ↦ .ok _ _

theorem returns_giveBack (hne : ts ≠ []) : Returns depth (fun n ↦ giveBack (e n) ⟨ts, depth⟩)
    (StmtLevel.giveBack exprs (current ts).span (ts.drop 1)) := by
  refine returns_cut hne ?_
  refine .ite (fun _ ↦ ?_) fun _ ↦ ?_
  · exact (returns_takeEnd _ depth).bind fun _ _ _ ↦ .ok _ _
  · refine (he _).bind fun value ts _ ↦ ?_
    exact (returns_takeEnd ts depth).bind fun _ _ _ ↦ .ok _ _

theorem returns_throwing (hne : ts ≠ []) : Returns depth (fun n ↦ throwing (e n) ⟨ts, depth⟩)
    (StmtLevel.throwing exprs (current ts).span (ts.drop 1)) := by
  refine returns_cut hne ?_
  refine (he _).bind fun value ts _ ↦ ?_
  exact (returns_takeEnd ts depth).bind fun _ _ _ ↦ .ok _ _

theorem returns_assignOrExpr (ts : List Token) :
    Returns depth (fun n ↦ assignOrExpr (e n) ⟨ts, depth⟩) (StmtLevel.assignOrExpr exprs ts) := by
  refine (he ts).bind fun target ts _ ↦ ?_
  cases hop : StmtLevel.assignOp? (current ts) with
  | some op =>
    have hne := ne_nil_of_kind (StmtLevel.kind_of_assignOp? hop) rfl
    simp only [hop]
    refine returns_cut hne ?_
    refine (he _).bind fun value ts _ ↦ ?_
    exact (returns_takeEnd ts depth).bind fun _ _ _ ↦ .ok _ _
  | none =>
    simp only [hop]
    exact (returns_takeEnd ts depth).bind fun _ _ _ ↦ .ok _ _

theorem returns_condition (ts : List Token) :
    Returns depth (fun n ↦ condition (e n) ⟨ts, depth⟩) (StmtLevel.condition exprs ts) := by
  refine (returns_takeSymbol .openParen ts depth).bind fun _ ts _ ↦ ?_
  refine (he ts).bind fun e ts _ ↦ ?_
  exact (returns_takeSymbol .closeParen ts depth).bind fun _ _ _ ↦ .ok _ _

end Simple

/-! ## Blocks and branches -/

theorem returns_braces {b : Nat → Watched (List Stmt)} {statement : Parser Stmt}
    (hb : ∀ ts fuel, ts.length ≤ fuel → Returns depth (fun n ↦ b n ⟨ts, depth⟩)
      (StmtLevel.statements statement fuel ts)) (ts : List Token) :
    Returns depth (fun n ↦ braces (b n) ⟨ts, depth⟩) (StmtLevel.braces statement ts) := by
  refine (returns_takeSymbol .openBrace ts depth).bind fun opening ts _ ↦ ?_
  refine (hb ts _ (Nat.le_refl _)).bind fun body ts _ ↦ ?_
  exact (returns_takeSymbol .closeBrace ts depth).bind fun _ _ _ ↦ .ok _ _

section Blocks

variable {inner : Option StmtLevel} {b : Nat → Watched Block} {r : Nat → Watched Branch}
variable (hb : ∀ ts, Returns depth (fun n ↦ b n ⟨ts, depth⟩) (StmtLevel.block inner ts))
variable (hr : ∀ ts, ts ≠ [] → Returns depth (fun n ↦ r n ⟨ts, depth⟩)
  (StmtLevel.deeper inner StmtLevel.branch ts))
include hb hr

theorem returns_otherwise (ts : List Token) :
    Returns depth (fun n ↦ otherwise (r n) (b n) ⟨ts, depth⟩) (StmtLevel.otherwise inner ts) := by
  refine .ite (fun helse ↦ ?_) fun _ ↦ .ok _ _
  refine returns_cut (ne_nil_of_kind (beq_iff_eq.1 helse) rfl) ?_
  refine .ite (fun hif ↦ ?_) fun _ ↦ ?_
  · exact (hr _ (ne_nil_of_kind (beq_iff_eq.1 hif) rfl)).bind fun _ _ _ ↦ .ok _ _
  · exact (hb _).bind fun _ _ _ ↦ .ok _ _

variable {e : Nat → Watched Expr} {exprs : ExprLevel}
variable (he : ∀ ts, Returns depth (fun n ↦ e n ⟨ts, depth⟩) (exprs.expression ts))
include he

theorem returns_branchWith (hne : ts ≠ []) :
    Returns depth (fun n ↦ branchWith (e n) (r n) (b n) ⟨ts, depth⟩)
      (StmtLevel.branchWith exprs inner ts) := by
  refine returns_cut hne ?_
  refine (returns_condition he _).bind fun c ts _ ↦ ?_
  refine (hb ts).bind fun body ts _ ↦ ?_
  exact (returns_otherwise hb hr ts).bind fun _ _ _ ↦ .ok _ _

omit hr in
theorem returns_loop (hne : ts ≠ []) : Returns depth (fun n ↦ loop (e n) (b n) ⟨ts, depth⟩)
    (StmtLevel.loop exprs inner (current ts).span (ts.drop 1)) := by
  refine returns_cut hne ?_
  refine (returns_condition he _).bind fun c ts _ ↦ ?_
  exact (hb ts).bind fun _ _ _ ↦ .ok _ _

end Blocks

/-! ## The parsers of a depth -/

open StmtLevel (ofRoom below)

/-- The parsers that start at a depth come to the same outcomes as those of the level with so much room,
and return to the depth. -/
structure StmtsAlike (room depth : Nat) : Prop where
  statement : ∀ ts,
    Returns depth (fun n ↦ statement n ⟨ts, depth⟩) ((ofRoom room).statement ts)
  branch : ∀ ts, ts ≠ [] →
    Returns depth (fun n ↦ branch n ⟨ts, depth⟩) ((ofRoom room).branch ts)
  statements : ∀ ts fuel, ts.length ≤ fuel → Returns depth (fun n ↦ statements n ⟨ts, depth⟩)
    (StmtLevel.statements (ofRoom room).statement fuel ts)

/-- The next depth is like the level below, if there is one. -/
def StmtsAlikeBelow (room depth : Nat) : Prop :=
  ∀ room', room = room' + 1 → StmtsAlike room' (depth + 1)

/-- Each statement takes a token off, so that the rounds are no more than the tokens. -/
theorem returns_statements {room : Nat}
    (hs : ∀ ts, Returns depth (fun n ↦ statement n ⟨ts, depth⟩) ((ofRoom room).statement ts))
    (ts : List Token) (fuel : Nat) (hfuel : ts.length ≤ fuel) :
    Returns depth (fun n ↦ statements n ⟨ts, depth⟩)
      (StmtLevel.statements (ofRoom room).statement fuel ts) := by
  induction fuel generalizing ts with
  | zero =>
    obtain rfl := List.length_eq_zero_iff.1 (Nat.le_zero.1 hfuel)
    exact .of_succ (.ok _ _)
  | succ fuel ih =>
    refine .of_succ ?_
    simp only [statements]
    rw [StmtLevel.statements]
    refine .ite (fun _ ↦ .ok _ _) fun _ ↦ ?_
    refine (hs ts).bind fun s rest hfirst ↦ ?_
    have hrest := StmtLevel.consumes_statement room _ _ _ hfirst
    exact (ih rest (by omega)).bind fun _ _ _ ↦ .ok _ _

section Depth

variable {room : Nat} (hdepth : room + depth = maxNesting)
include hdepth

theorem returns_nestedStmt {parser : Nat → Watched α} {parser' : StmtLevel → Parser α}
    (h : ∀ room', room = room' + 1 →
      Returns (depth + 1) (fun n ↦ parser n ⟨ts, depth + 1⟩) (parser' (ofRoom room') ts)) :
    Returns depth (fun n ↦ nested (parser n) ⟨ts, depth⟩)
      (StmtLevel.deeper (below room) parser' ts) := by
  refine returns_descending hdepth ?_ ?_
  · rintro rfl
    rfl
  · rintro room' rfl
    exact (h room' rfl).setBack

/-- What starts with none of the words of a statement is a declaration, an assignment or an
expression. -/
theorem returns_other (ts : List Token) :
    Returns depth
      (fun n ↦ if (StmtLevel.declarationHead? ts).isSome then typed (expression n) n ⟨ts, depth⟩
        else assignOrExpr (expression n) ⟨ts, depth⟩)
      (match StmtLevel.declarationHead? ts with
        | some (segments, name, rest) =>
          StmtLevel.typed (ExprLevel.ofRoom room) segments name rest
        | none => StmtLevel.assignOrExpr (ExprLevel.ofRoom room) ts) := by
  have he := (exprsAlike_ofRoom hdepth).expression
  cases hhead : StmtLevel.declarationHead? ts with
  | none => exact returns_assignOrExpr he ts
  | some head => exact returns_typed he hhead

variable (hbelow : StmtsAlikeBelow room depth)
include hbelow

theorem returns_block (ts : List Token) :
    Returns depth (fun n ↦ nested (braces (statements n)) ⟨ts, depth⟩)
      (StmtLevel.block (below room) ts) :=
  returns_nestedStmt hdepth fun room' h ↦ returns_braces (hbelow room' h).statements ts

/-- A branch one level deeper, as it stands behind the word `else`. -/
theorem returns_elseBranch (ts : List Token) (hne : ts ≠ []) :
    Returns depth (fun n ↦ nested (branch n) ⟨ts, depth⟩)
      (StmtLevel.deeper (below room) StmtLevel.branch ts) :=
  returns_nestedStmt hdepth fun room' h ↦ (hbelow room' h).branch ts hne

theorem returns_branch (ts : List Token) (hne : ts ≠ []) :
    Returns depth (fun n ↦ branch n ⟨ts, depth⟩) ((ofRoom room).branch ts) := by
  refine .of_succ ?_
  simp only [branch]
  rw [StmtLevel.branch_ofRoom]
  exact returns_branchWith (returns_block hdepth hbelow) (returns_elseBranch hdepth hbelow)
    (exprsAlike_ofRoom hdepth).expression hne

theorem returns_statement (ts : List Token) :
    Returns depth (fun n ↦ statement n ⟨ts, depth⟩) ((ofRoom room).statement ts) := by
  have he := (exprsAlike_ofRoom hdepth).expression
  have hblock := returns_block hdepth hbelow
  have hother := returns_other hdepth ts
  refine .of_succ ?_
  simp only [statement]
  rw [StmtLevel.statement_ofRoom, StmtLevel.statementWith]
  cases hkind : (current ts).kind with
  | keyword word =>
    have hne := ne_nil_of_kind hkind rfl
    cases word with
    | varWord => exact returns_untyped he hne
    | returnWord => exact returns_giveBack he hne
    | throwWord => exact returns_throwing he hne
    | ifWord =>
      have hbranch := returns_branch hdepth hbelow ts hne
      rw [StmtLevel.branch_ofRoom] at hbranch
      exact hbranch.bind fun _ _ _ ↦ .ok _ _
    | whileWord => exact returns_loop hblock he hne
    | elseWord => exact .refuse _ ts depth
    | _ => exact hother
  | symbol mark =>
    cases mark with
    | openBrace => exact (hblock ts).bind fun _ _ _ ↦ .ok _ _
    | closeBrace => exact .refuse _ ts depth
    | _ => exact hother
  | _ => exact hother

/-- **A depth is like its level if the next one is.** -/
theorem stmtsAlike_of_below : StmtsAlike room depth where
  statement := returns_statement hdepth hbelow
  branch := returns_branch hdepth hbelow
  statements := returns_statements (returns_statement hdepth hbelow)

end Depth

/-- **All depths are like their levels.** -/
theorem stmtsAlike_ofRoom {room depth : Nat} (hdepth : room + depth = maxNesting) :
    StmtsAlike room depth := by
  induction room generalizing depth with
  | zero => exact stmtsAlike_of_below hdepth nofun
  | succ room ih =>
    refine stmtsAlike_of_below hdepth fun room' h ↦ ?_
    obtain rfl := Nat.succ.inj h
    exact ih (by omega)

/-! ## Bodies -/

theorem cut_length (depth : Nat) (front rest : List Token) :
    cut front.length ⟨front ++ rest, depth⟩ = .ok ⟨rest, depth⟩ := by
  simp [cut]

/-- What is taken off is what the search of the end of the statement passes over. -/
theorem cutStatement_eq (seen ts : List Token) (opened : Nat) :
    cutStatement ⟨seen ++ ts, depth⟩ seen.length opened ts =
      .ok ⟨afterStatement opened ts, depth⟩ := by
  induction ts generalizing seen opened with
  | nil => exact cut_length depth seen []
  | cons t ts ih =>
    have hat : cut seen.length ⟨seen ++ t :: ts, depth⟩ = .ok ⟨t :: ts, depth⟩ :=
      cut_length depth seen _
    have hbehind : cut (seen.length + 1) ⟨seen ++ t :: ts, depth⟩ = .ok ⟨ts, depth⟩ := by
      simpa using cut_length depth (seen ++ [t]) ts
    have hnext (opened : Nat) : cutStatement ⟨seen ++ t :: ts, depth⟩ (seen.length + 1) opened ts =
        .ok ⟨afterStatement opened ts, depth⟩ := by simpa using ih (seen ++ [t]) opened
    rw [cutStatement, afterStatement]
    obtain ⟨kind, span⟩ := t
    cases kind with
    | symbol mark =>
      cases mark with
      | openBrace => exact hnext _
      | closeBrace =>
        by_cases h : 1 < opened
        · simp only [if_pos h, hnext]
        · simp only [if_neg h, hbehind]
      | semicolon =>
        by_cases h : opened = 0
        · simp only [if_pos h, hbehind]
        · simp only [if_neg h, hnext]
      | _ => exact hnext _
    | done => exact hat
    | _ => exact hnext _

/-- **The loop over the statements of a body comes to its end.** -/
theorem settles_body {fuel : Nat} (hfuel : ts.length ≤ fuel) :
    Settles (fun n ↦ body n ⟨ts, 0⟩) (.ok (parseStatements fuel ts)) := by
  induction fuel generalizing ts with
  | zero =>
    obtain rfl := List.length_eq_zero_iff.1 (Nat.le_zero.1 hfuel)
    exact .of_succ (.ok _)
  | succ fuel ih =>
    refine .of_succ ?_
    simp only [body]
    rw [parseStatements]
    cases hend : atEnd ts with
    | true => exact .ok _
    | false =>
      have hstatement := (stmtsAlike_ofRoom (Nat.add_zero maxNesting)).statement ts
      simp only [Bool.false_eq_true, if_false]
      rw [StmtLevel.outermost]
      cases hs : (ofRoom maxNesting).statement ts with
      | ok r =>
        have hrest := StmtLevel.consumes_statement maxNesting _ _ _ hs
        rw [hs] at hstatement
        refine Settles.recovering_ok hstatement ?_
        have hbody := @ih r.2 (by omega)
        exact hbody.bind_ok (.ok _)
      | error o =>
        have hafter := length_afterStatement 0 hend
        rw [hs] at hstatement
        refine Settles.recovering_error hstatement ?_
        refine (Settles.const (cutStatement_eq [] ts 0)).bind_ok ?_
        have hbody := @ih (afterStatement 0 ts) (by omega)
        exact hbody.bind_ok (.ok _)

end Watched

end Dossier.Script
