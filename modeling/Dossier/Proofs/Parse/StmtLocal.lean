import Dossier.Proofs.Parse.Braces
import Dossier.Proofs.Parse.StmtSound

/-!
# Statements do not look beyond closed tokens

Where all braces are closed, the parser of a statement stays within the tokens: it yields the same and
complains of the same, whatever stands behind them.

* A statement can end at the last of the tokens, and then what stands behind them is looked at after
  all, for the word `else`.  This is the only word that must not stand there.
* `Confined r depth parser` says that a parser does not look behind tokens that close `depth` braces.
  Inside of a block there are more of them to close, which is why the statements of a block cannot
  run to the end.
* `StmtLevel.local_ofRoom` is the result, by one lemma for each parser.
-/

set_option autoImplicit false

namespace Dossier.Script

open Text (Span)

/-- What stands behind closed tokens makes no difference to the parser, and those that it leaves are
closed. -/
def Confined {α : Type} (r : List Token) (parser : Parser α) : Prop :=
  ∀ depth ts, Unfinished depth ts → Extends r (Closed depth) (parser ts) (parser (ts ++ r))

theorem atKeyword_append {ts : List Token} (h : ts ≠ []) (us : List Token) (word : Keyword) :
    atKeyword word (ts ++ us) = atKeyword word ts := by
  rw [atKeyword, current_append h, atKeyword]

namespace StmtLevel

variable {r : List Token} {depth : Nat}

theorem confined_takeEnd : Confined r takeEnd := by
  intro depth ts hts
  have hne := hts.ne_nil
  rw [takeEnd, takeEnd, atSymbol_append hne, atEnd_append hne, drop_one_append hne]
  refine .ite (fun hsemicolon ↦ .ok _ ?_) fun _ ↦ .ite (fun _ ↦ .ok _ hts.closed) fun _ ↦ ?_
  · have hclosed := hts.closed
    rw [eq_cons_of_atSymbol hsemicolon] at hclosed
    exact hclosed.of_semicolon
  · exact extends_complain _ hne

/-- The names of a declaration are found in front of the fence. -/
theorem declarationHead?_append {P : List Token → Prop} (hP : Fenced P) {ts : List Token}
    (hts : P ts) (r : List Token) : (∀ segments name rest,
        declarationHead? ts = some (segments, name, rest) → P rest) ∧
      declarationHead? (ts ++ r) =
        (declarationHead? ts).map fun (segments, name, rest) ↦ (segments, name, rest ++ r) := by
  fun_induction declarationHead? ts with
  | case1 text span point ts ih =>
    obtain ⟨ihrest, iheq⟩ := ih (hP.tail (hP.tail hts rfl) rfl)
    constructor
    · intro segments name rest h
      obtain ⟨⟨more, name', rest'⟩, hmore, h⟩ := Option.map_eq_some_iff.1 h
      cases h
      exact ihrest _ _ _ hmore
    · rw [List.cons_append, List.cons_append, declarationHead?, iheq, Option.map_map, Option.map_map]
      rfl
  | case2 text span name nameSpan t ts ht =>
    constructor
    · rintro _ _ _ ⟨⟩
      exact hP.tail (hP.tail hts rfl) rfl
    · simp only [List.cons_append, declarationHead?, if_pos ht]
      rfl
  | case3 text span name nameSpan t ts ht =>
    refine ⟨nofun, ?_⟩
    simp only [List.cons_append, declarationHead?, if_neg ht]
    rfl
  | case4 ts hdot hnames =>
    refine ⟨nofun, ?_⟩
    obtain ⟨⟨kind, span⟩, us, rfl⟩ := List.exists_cons_of_ne_nil (hP.ne_nil hts)
    cases kind with
    | name text =>
      have hus := hP.tail hts rfl
      obtain ⟨⟨kind, span'⟩, vs, rfl⟩ := List.exists_cons_of_ne_nil (hP.ne_nil hus)
      cases kind with
      | name name =>
        obtain ⟨t, ws, rfl⟩ := List.exists_cons_of_ne_nil (hP.ne_nil (hP.tail hus rfl))
        exact absurd rfl (hnames text span name span' t ws)
      | symbol mark =>
        cases mark with
        | dot => exact absurd rfl (hdot text span span' vs)
        | _ => rfl
      | _ => rfl
    | _ => rfl

/-! ## Simple statements -/

/-- The end of a simple statement, and then its tree. -/
theorem extends_takeEnd {ts : List Token} (hts : Unfinished depth ts) (s : Stmt) :
    Extends r (Closed depth) (takeEnd ts >>= fun taken ↦ Except.ok (s, taken.2))
      (takeEnd (ts ++ r) >>= fun taken ↦ Except.ok (s, taken.2)) :=
  (confined_takeEnd depth ts hts).bind fun _ _ hrest ↦ .ok s hrest

section Simple

variable {exprs : ExprLevel} (he : Ignores r exprs.expression)
include he

theorem confined_untyped (start : Span) : Confined r (untyped exprs start) := by
  intro depth ts hts
  have hP := fenced_unfinished depth
  refine (ignores_takeName _ hP ts hts).bind fun name ts hts ↦ ?_
  refine (ignores_takeSymbol (fun _ ↦ rfl) _ hP ts hts).bind fun _ ts hts ↦ ?_
  refine (he _ hP ts hts).bind fun init ts hts ↦ ?_
  exact extends_takeEnd hts _

theorem confined_typed (segments : List Name) (name : Name) :
    Confined r (typed exprs segments name) := by
  intro depth ts hts
  have hP := fenced_unfinished depth
  rw [typed, typed, atSymbol_append hts.ne_nil, drop_one_append hts.ne_nil]
  refine .ite (fun hmark ↦ ?_) fun _ ↦ extends_takeEnd hts _
  have hdrop := hP.drop_one hts (beq_iff_eq.1 hmark) rfl
  exact (he _ hP _ hdrop).bind fun init ts hts ↦ extends_takeEnd hts _

theorem confined_giveBack (start : Span) : Confined r (giveBack exprs start) := by
  intro depth ts hts
  have hP := fenced_unfinished depth
  rw [giveBack, giveBack, atSymbol_append hts.ne_nil, atEnd_append hts.ne_nil]
  refine .ite (fun _ ↦ extends_takeEnd hts _) fun _ ↦ ?_
  exact (he _ hP ts hts).bind fun value ts hts ↦ extends_takeEnd hts _

theorem confined_throwing (start : Span) : Confined r (throwing exprs start) := by
  intro depth ts hts
  refine (he _ (fenced_unfinished depth) ts hts).bind fun value ts hts ↦ ?_
  exact extends_takeEnd hts _

theorem confined_assignOrExpr : Confined r (assignOrExpr exprs) := by
  intro depth ts hts
  have hP := fenced_unfinished depth
  refine (he _ hP ts hts).bind fun e ts hts ↦ ?_
  dsimp only
  rw [current_append hts.ne_nil, drop_one_append hts.ne_nil]
  split
  · rename_i op hop
    have hdrop : Unfinished depth (ts.drop 1) :=
      hP.drop_one hts (kind_of_assignOp? hop) (by cases op <;> rfl)
    refine (he _ hP _ hdrop).bind fun value ts hts ↦ ?_
    exact extends_takeEnd hts _
  · exact extends_takeEnd hts _

theorem extends_condition {ts : List Token} (hts : Unfinished depth ts) :
    Extends r (Unfinished depth) (condition exprs ts) (condition exprs (ts ++ r)) := by
  have hP := fenced_unfinished depth
  refine (ignores_takeSymbol (fun _ ↦ rfl) _ hP ts hts).bind fun _ ts hts ↦ ?_
  refine (he _ hP ts hts).bind fun e ts hts ↦ ?_
  exact (ignores_takeSymbol (fun _ ↦ rfl) _ hP ts hts).bind fun _ ts hts ↦ .ok e hts

end Simple

/-! ## Blocks and branches -/

theorem extends_openBrace {ts : List Token} (hts : Unfinished depth ts) :
    Extends r (Closed (depth + 1)) (takeSymbol .openBrace ts) (takeSymbol .openBrace (ts ++ r)) := by
  have hne := hts.ne_nil
  rw [takeSymbol, takeSymbol, atSymbol_append hne, current_append hne, drop_one_append hne]
  refine .ite (fun hat ↦ .ok _ ?_) fun _ ↦ extends_complain _ hne
  have hclosed := hts.closed
  rw [eq_cons_of_atSymbol hat] at hclosed
  exact hclosed.of_openBrace

theorem extends_closeBrace {ts : List Token} (hts : Closed (depth + 1) ts) :
    Extends r (Closed depth) (takeSymbol .closeBrace ts) (takeSymbol .closeBrace (ts ++ r)) := by
  have hne := hts.ne_nil
  rw [takeSymbol, takeSymbol, atSymbol_append hne, current_append hne, drop_one_append hne]
  refine .ite (fun hat ↦ .ok _ ?_) fun _ ↦ extends_complain _ hne
  rw [eq_cons_of_atSymbol hat] at hts
  exact hts.of_closeBrace

/-- A statement takes some token. -/
def Consumes {α : Type} (parser : Parser α) : Prop :=
  ∀ ts a rest, parser ts = .ok (a, rest) → rest.length < ts.length

/-- The statements of a block end within its braces, and the fuel does not run out. -/
theorem extends_statements {statement : Parser Stmt} (hs : Confined r statement)
    (hc : Consumes statement) {fuel fuel' : Nat} {ts : List Token} (hts : Closed (depth + 1) ts)
    (hfuel : ts.length ≤ fuel) (hfuel' : ts.length ≤ fuel') :
    Extends r (Closed (depth + 1)) (statements statement fuel ts)
      (statements statement fuel' (ts ++ r)) := by
  induction fuel generalizing fuel' ts with
  | zero => exact absurd (List.length_eq_zero_iff.1 (Nat.le_zero.1 hfuel)) hts.ne_nil
  | succ fuel ih =>
    cases fuel' with
    | zero => exact absurd (List.length_eq_zero_iff.1 (Nat.le_zero.1 hfuel')) hts.ne_nil
    | succ fuel' =>
      rw [statements, statements, atSymbol_append hts.ne_nil, atEnd_append hts.ne_nil]
      refine .ite (fun _ ↦ .ok _ hts) fun _ ↦ ?_
      have hfirst := hs _ ts hts.unfinished
      cases hx : statement ts with
      | error o =>
        rw [hx] at hfirst
        generalize statement (ts ++ r) = y at hfirst ⊢
        cases hfirst
        exact .error o
      | ok x =>
        obtain ⟨s, us⟩ := x
        have hlength := hc _ _ _ hx
        rw [hx] at hfirst
        generalize statement (ts ++ r) = y at hfirst ⊢
        cases hfirst with
        | ok _ hus =>
          have hmore := @ih fuel' _ hus (by omega) (by omega)
          exact hmore.bind fun more vs hvs ↦ .ok _ hvs

/-- The parsers of a level do not look behind closed tokens. -/
structure Local (r : List Token) (level : StmtLevel) : Prop where
  statement : Confined r level.statement
  consumes : Consumes level.statement
  branch : ∀ {depth ts}, Unfinished depth ts → (current ts).kind = .keyword .ifWord →
    Extends r (Closed depth) (level.branch ts) (level.branch (ts ++ r))

/-- Neither do those of the level below, if there is one. -/
def LocalBelow (r : List Token) (inner : Option StmtLevel) : Prop := ∀ level ∈ inner, level.Local r

variable {inner : Option StmtLevel}

theorem extends_deeper {α : Type} {P : List Token → Prop} {parser : StmtLevel → Parser α}
    (hi : LocalBelow r inner) {ts : List Token} (hne : ts ≠ [])
    (h : ∀ level : StmtLevel, level.Local r →
      Extends r P (parser level ts) (parser level (ts ++ r))) :
    Extends r P (deeper inner parser ts) (deeper inner parser (ts ++ r)) := by
  cases inner with
  | none => exact extends_complain .tooComplex hne
  | some level => exact h level (hi level rfl)

theorem confined_block (hi : LocalBelow r inner) : Confined r (block inner) := by
  intro depth ts hts
  refine extends_deeper hi hts.ne_nil fun level hlevel ↦ ?_
  refine (extends_openBrace hts).bind fun opening us hus ↦ ?_
  have hlength : us.length ≤ (us ++ r).length := by simp
  have hbody := extends_statements hlevel.statement hlevel.consumes hus (Nat.le_refl _) hlength
  refine hbody.bind fun body vs hvs ↦ ?_
  exact (extends_closeBrace hvs).bind fun close ws hws ↦ .ok _ hws

section Branches

variable (hi : LocalBelow r inner) (hr : atKeyword .elseWord r = false)
include hi hr

/-- Behind the last of the tokens there must not be the word `else`. -/
theorem extends_otherwise {ts : List Token} (hts : Closed depth ts) :
    Extends r (Closed depth) (otherwise inner ts) (otherwise inner (ts ++ r)) := by
  rcases eq_or_ne ts [] with rfl | hne
  · rw [otherwise, otherwise, List.nil_append, hr]
    exact .ok _ hts
  · have hunfinished : Unfinished depth ts := ⟨hts, hne⟩
    rw [otherwise, otherwise, atKeyword_append hne, drop_one_append hne]
    refine .ite (fun helse ↦ ?_) fun _ ↦ .ok _ hts
    have hdrop := (fenced_unfinished depth).drop_one hunfinished (beq_iff_eq.1 helse) rfl
    rw [atKeyword_append hdrop.ne_nil]
    refine .ite (fun hif ↦ ?_) fun _ ↦ ?_
    · refine Extends.bind (P := Closed depth) ?_ fun b us hus ↦ .ok _ hus
      exact extends_deeper hi hdrop.ne_nil fun level hlevel ↦ hlevel.branch hdrop (beq_iff_eq.1 hif)
    · exact (confined_block hi _ _ hdrop).bind fun b us hus ↦ .ok _ hus

variable {exprs : ExprLevel} (he : Ignores r exprs.expression)
include he

theorem extends_branchWith {ts : List Token} (hts : Unfinished depth ts)
    (hif : (current ts).kind = .keyword .ifWord) :
    Extends r (Closed depth) (branchWith exprs inner ts) (branchWith exprs inner (ts ++ r)) := by
  have hdrop := (fenced_unfinished depth).drop_one hts hif rfl
  rw [branchWith, branchWith, current_append hts.ne_nil, drop_one_append hts.ne_nil]
  refine (extends_condition he hdrop).bind fun c us hus ↦ ?_
  refine (confined_block hi _ us hus).bind fun b vs hvs ↦ ?_
  exact (extends_otherwise hi hr hvs).bind fun o ws hws ↦ .ok _ hws

omit hr in
theorem confined_loop (start : Span) : Confined r (loop exprs inner start) := by
  intro depth ts hts
  refine (extends_condition he hts).bind fun c us hus ↦ ?_
  exact (confined_block hi _ us hus).bind fun b vs hvs ↦ .ok _ hvs

/-! ## The parsers of a level -/

theorem confined_statementWith : Confined r (statementWith exprs inner) := by
  intro depth ts hts
  have hP := fenced_unfinished depth
  rw [statementWith, statementWith, current_append hts.ne_nil, drop_one_append hts.ne_nil]
  split
  · rename_i hword
    exact confined_untyped he _ _ _ (hP.drop_one hts hword rfl)
  · rename_i hword
    exact confined_giveBack he _ _ _ (hP.drop_one hts hword rfl)
  · rename_i hword
    exact confined_throwing he _ _ _ (hP.drop_one hts hword rfl)
  · rename_i hword
    exact (extends_branchWith hi hr he hts hword).bind fun b us hus ↦ .ok _ hus
  · rename_i hword
    exact confined_loop hi he _ _ _ (hP.drop_one hts hword rfl)
  · exact (confined_block hi _ _ hts).bind fun b us hus ↦ .ok _ hus
  · exact extends_complain _ hts.ne_nil
  · exact extends_complain _ hts.ne_nil
  · obtain ⟨hrest, heq⟩ := declarationHead?_append hP hts r
    rw [heq]
    cases hhead : declarationHead? ts with
    | none => exact confined_assignOrExpr he _ _ hts
    | some head => exact confined_typed he _ _ _ _ (hrest _ _ _ hhead)

end Branches

/-! ## All levels -/

/-- **A statement takes some token**, at every level. -/
theorem consumes_statement (room : Nat) : Consumes (ofRoom room).statement := by
  intro ts s rest h
  obtain ⟨us, rfl, hus⟩ := (sound_ofRoom room).statement _ _ _ h
  have hpos := List.length_pos_of_ne_nil
    (ne_nil_of_proper (TokenKind.isProper_of_opensStmt hus.opens))
  rw [List.length_append]
  omega

/-- **No level looks behind closed tokens.** -/
theorem local_ofRoom {r : List Token} (hr : atKeyword .elseWord r = false) (room : Nat) :
    (ofRoom room).Local r := by
  have hstep {room : Nat} (hi : LocalBelow r (below room)) : (ofRoom room).Local r := {
    statement := by
      rw [statement_ofRoom]
      exact confined_statementWith hi hr (ExprLevel.local_ofRoom r room).expression
    consumes := consumes_statement room
    branch := by
      rw [branch_ofRoom]
      exact extends_branchWith hi hr (ExprLevel.local_ofRoom r room).expression }
  induction room with
  | zero => exact hstep (by simp [LocalBelow, below])
  | succ room ih =>
    refine hstep fun level hlevel ↦ ?_
    obtain rfl := Option.some.inj hlevel
    exact ih

end StmtLevel

end Dossier.Script
