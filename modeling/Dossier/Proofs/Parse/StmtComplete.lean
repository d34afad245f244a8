import Dossier.Proofs.Parse.ExprComplete
import Dossier.Proofs.Parse.StmtSound

/-!
# Derived statements are parsed

Tokens that can be read as a statement are taken off as that statement, if what follows can follow it,
or the parser is stopped by a limit.

* `Follows last rest` says what can: not the word `else`, and the end if the statement is the last one.
* A statement that starts with a name is a declaration exactly if the grammar says so: an expression
  has no two names side by side, so that `declarationHead?` finds nothing in it
  (`declarationHead?_eq_none`), and it finds the names of a declaration (`declarationHead?_of_path`).
* `StmtPhrase.Found` says for each phrase what becomes of the parsers that stand before its tokens, and
  `StmtPhrase.Derives.found` is the induction.
-/

set_option autoImplicit false

namespace Dossier.Script

open Text (Span)

theorem atKeyword_cons (word word' : Keyword) (span : Span) (ts : List Token) :
    atKeyword word (⟨.keyword word', span⟩ :: ts) = decide (word' = word) := by
  simp [atKeyword, current, beq_eq_decide]

/-- The tokens can follow a statement; the flag tells whether the end of the body has to. -/
structure Follows (last : Bool) (rest : List Token) : Prop where
  noElse : atKeyword .elseWord rest = false
  done : last = true → ∃ span more, rest = ⟨.done, span⟩ :: more

namespace StmtLevel

/-! ## The end of simple statements -/

theorem takeEnd_append {last : Bool} {close rest : List Token} (h : Closes last close)
    (hrest : Follows last rest) : takeEnd (close ++ rest) = .ok ((), rest) := by
  cases h with
  | semicolon => rfl
  | atEnd =>
    obtain ⟨span, more, rfl⟩ := hrest.done rfl
    rfl

theorem leadsTo_takeEnd {α : Type} {last : Bool} {close rest : List Token} {r : Except Obstacle α}
    {f : Unit × List Token → Except Obstacle α} (h : Closes last close) (hrest : Follows last rest)
    (hf : LeadsTo (f ((), rest)) r) : LeadsTo (takeEnd (close ++ rest) >>= f) r := by
  rw [takeEnd_append h hrest]
  exact hf

/-- What stands behind a simple statement without its end. -/
theorem current_of_closes {last : Bool} {close rest : List Token} (h : Closes last close)
    (hrest : Follows last rest) : (current (close ++ rest)).kind = .symbol .semicolon ∨
      (current (close ++ rest)).kind = .done := by
  cases h with
  | semicolon => exact .inl rfl
  | atEnd =>
    obtain ⟨span, more, rfl⟩ := hrest.done rfl
    exact .inr rfl

/-- The end of a statement is the end of the expression before it. -/
theorem stops_of_closes {last : Bool} {close rest : List Token} (h : Closes last close)
    (hrest : Follows last rest) : Stops 0 (close ++ rest) := by
  rcases current_of_closes h hrest with hkind | hkind
  · exact .of_none (by simp [atSymbol, hkind]) (by simp [atSymbol, hkind])
      (by simp [ExprLevel.binaryOp?, hkind, BinaryOp.ofSymbol?]) 0
  · exact .of_none (by simp [atSymbol, hkind]) (by simp [atSymbol, hkind])
      (by simp [ExprLevel.binaryOp?, hkind]) 0

/-! ## Declarations with a type -/

theorem declarationHead?_of_path {segments : List Name} {ts : List Token}
    (h : PathDerives segments ts) (name : Name) {t : Token}
    (ht : t.kind = .symbol .assign ∨ t.kind = .symbol .semicolon ∨ t.kind = .done)
    (rest : List Token) :
    declarationHead? (ts ++ ⟨.name name.text, name.span⟩ :: t :: rest) =
      some (segments, name, t :: rest) := by
  induction h with
  | single n =>
    rw [List.singleton_append, declarationHead?.eq_2 _ _ _ _ _ _]
    rw [if_pos ht]
  | cons n point _ ih =>
    rw [List.cons_append, List.cons_append, declarationHead?, ih]
    rfl

/-- No declaration is found where no two names stand side by side. -/
theorem declarationHead?_eq_none {ts rest : List Token} (h : ts.IsChain Apart)
    (hname : (current rest).kind.isName = false) (hdot : atSymbol .dot rest = false) :
    declarationHead? (ts ++ rest) = none := by
  rw [Option.eq_none_iff_forall_ne_some]
  rintro ⟨segments, name, more⟩ hhead
  obtain ⟨us, hus, heq⟩ := declarationHead?_eq_some hhead
  clear hhead
  -- the names that were found, one after the other: each is one of `ts`, and the next two tokens too
  induction hus generalizing ts with
  | single n =>
    rcases ts with _ | ⟨t, _ | ⟨u, ts⟩⟩ <;>
      simp only [List.nil_append, List.cons_append, List.cons.injEq] at heq
    · rw [heq] at hname
      cases hname
    · rw [heq.2] at hname
      cases hname
    · obtain ⟨rfl, rfl, -⟩ := heq
      exact (List.isChain_cons_cons.1 h).1 ⟨rfl, rfl⟩
  | cons n point _ ih =>
    rcases ts with _ | ⟨t, _ | ⟨u, ts⟩⟩ <;>
      simp only [List.nil_append, List.cons_append, List.cons.injEq] at heq
    · rw [heq] at hname
      cases hname
    · rw [heq.2] at hdot
      cases hdot
    · exact ih h.tail.tail heq.2.2

/-- The value and the end of a declaration start with a token that tells it from an expression. -/
theorem exists_eq_cons_of_init {last : Bool} {init : Option Expr} {us close rest : List Token}
    (h : InitDerives init us) (hclose : Closes last close) (hrest : Follows last rest) :
    ∃ t more, us ++ (close ++ rest) = t :: more ∧
      (t.kind = .symbol .assign ∨ t.kind = .symbol .semicolon ∨ t.kind = .done) := by
  cases h with
  | some => exact ⟨_, _, rfl, .inl rfl⟩
  | none =>
    cases hclose with
    | semicolon => exact ⟨_, _, rfl, .inr (.inl rfl)⟩
    | atEnd =>
      obtain ⟨span, more, rfl⟩ := hrest.done rfl
      exact ⟨_, _, rfl, .inr (.inr rfl)⟩

/-- A statement that starts like an expression is a declaration, an assignment or an expression. -/
theorem statementWith_eq {exprs : ExprLevel} {inner : Option StmtLevel} {ts : List Token}
    (h : (current ts).kind.opensExpr) : statementWith exprs inner ts =
      match declarationHead? ts with
      | some (segments, name, rest) => typed exprs segments name rest
      | none => assignOrExpr exprs ts := by
  rw [statementWith]
  split
  -- the words and braces that the other statements start with
  iterate 8
    · rename_i hkind
      rw [hkind] at h
      cases h
  · rfl

end StmtLevel

namespace StmtPhrase

open StmtLevel

/-- What the parsers of all levels make of the tokens and what follows them. -/
def Found (ts : List Token) : StmtPhrase → Prop
  | statement last s => ∀ room rest, Follows last rest →
      LeadsTo ((ofRoom room).statement (ts ++ rest)) (.ok (s, rest))
  | statements last body => ∀ room fuel rest, ts.length ≤ fuel → Follows last rest →
      (atSymbol .closeBrace rest || atEnd rest) = true →
      LeadsTo (StmtLevel.statements (ofRoom room).statement fuel (ts ++ rest)) (.ok (body, rest))
  | block b => ∀ room rest, LeadsTo (StmtLevel.block (below room) (ts ++ rest)) (.ok (b, rest))
  | branch b => ∀ room rest, atKeyword .elseWord rest = false →
      LeadsTo ((ofRoom room).branch (ts ++ rest)) (.ok (b, rest))
  | otherwise o => ∀ room rest, atKeyword .elseWord rest = false →
      LeadsTo (StmtLevel.otherwise (below room) (ts ++ rest)) (.ok (o, rest))

variable {last : Bool} {e : Expr} {ts us close : List Token}

/-! ## Simple statements -/

theorem found_untyped (start mark : Span) (name : Name) (h : e.Derives ts)
    (hclose : Closes last close) :
    (statement last (.declare name none (some e) (start.cover e.span))).Found
      (⟨.keyword .varWord, start⟩ :: ⟨.name name.text, name.span⟩ :: ⟨.symbol .assign, mark⟩ ::
        (ts ++ close)) := by
  intro room rest hrest
  have hexpr := h.parsed room (close ++ rest) (stops_of_closes hclose hrest)
  simp only [List.cons_append, List.append_assoc]
  rw [statement_ofRoom]
  refine LeadsTo.bind (.refl _) (leadsTo_takeSymbol (hexpr.bind ?_))
  exact leadsTo_takeEnd hclose hrest (.refl _)

theorem found_typed {segments : List Name} {init : Option Expr} (name : Name)
    (hpath : PathDerives segments ts) (hinit : InitDerives init us) (hclose : Closes last close) :
    (statement last (.declare name (some ⟨segments, StmtLevel.coverNames segments⟩) init
      (typedSpan segments name init))).Found
      (ts ++ ⟨.name name.text, name.span⟩ :: (us ++ close)) := by
  intro room rest hrest
  have hopens : (current (ts ++ ⟨.name name.text, name.span⟩ :: (us ++ (close ++ rest)))).kind.opensExpr := by
    cases hpath <;> rfl
  obtain ⟨t, more, heq, ht⟩ := exists_eq_cons_of_init hinit hclose hrest
  simp only [List.cons_append, List.append_assoc]
  rw [statement_ofRoom, statementWith_eq hopens, heq, declarationHead?_of_path hpath name ht more]
  dsimp only
  rw [← heq, typed]
  cases hinit with
  | some mark h =>
    have hexpr := h.parsed room (close ++ rest) (stops_of_closes hclose hrest)
    rw [List.cons_append, atSymbol_cons, if_pos (by decide)]
    refine hexpr.bind (LeadsTo.bind (.refl _) ?_)
    exact leadsTo_takeEnd hclose hrest (.refl _)
  | none =>
    have hmark : atSymbol .assign (close ++ rest) = false := by
      rcases current_of_closes hclose hrest with hkind | hkind <;> simp [atSymbol, hkind]
    rw [List.nil_append, hmark, if_neg Bool.false_ne_true]
    exact LeadsTo.bind (.refl _) (leadsTo_takeEnd hclose hrest (.refl _))

theorem found_giveBackNothing (start : Span) (hclose : Closes last close) :
    (statement last (.giveBack none start)).Found (⟨.keyword .returnWord, start⟩ :: close) := by
  intro room rest hrest
  have hend : (atSymbol .semicolon (close ++ rest) || atEnd (close ++ rest)) = true := by
    rcases current_of_closes hclose hrest with hkind | hkind <;> simp [atSymbol, atEnd, hkind]
  rw [statement_ofRoom, List.cons_append]
  have hword : statementWith (ExprLevel.ofRoom room) (below room)
      (⟨.keyword .returnWord, start⟩ :: (close ++ rest)) =
      StmtLevel.giveBack (ExprLevel.ofRoom room) start (close ++ rest) := rfl
  rw [hword, StmtLevel.giveBack, if_pos hend]
  exact LeadsTo.bind (.refl _) (leadsTo_takeEnd hclose hrest (.refl _))

theorem found_giveBack (start : Span) (h : e.Derives ts) (hclose : Closes last close) :
    (statement last (.giveBack (some e) (start.cover e.span))).Found
      (⟨.keyword .returnWord, start⟩ :: (ts ++ close)) := by
  intro room rest hrest
  have hexpr := h.parsed room (close ++ rest) (stops_of_closes hclose hrest)
  have hopens := TokenKind.opensStmt_of_opensExpr
    (opensExpr_append (ExprPhrase.Derives.opens h) (close ++ rest))
  have hend : (atSymbol .semicolon (ts ++ (close ++ rest)) || atEnd (ts ++ (close ++ rest))) =
      false := by
    rw [atSymbol, TokenKind.beq_eq_false_of_opensStmt hopens rfl, Bool.false_or]
    exact TokenKind.beq_eq_false_of_opensStmt hopens rfl
  rw [statement_ofRoom, List.cons_append, List.append_assoc]
  have hword : statementWith (ExprLevel.ofRoom room) (below room)
      (⟨.keyword .returnWord, start⟩ :: (ts ++ (close ++ rest))) =
      StmtLevel.giveBack (ExprLevel.ofRoom room) start (ts ++ (close ++ rest)) := rfl
  rw [hword, StmtLevel.giveBack, hend, if_neg Bool.false_ne_true]
  refine hexpr.bind (LeadsTo.bind (.refl _) ?_)
  exact leadsTo_takeEnd hclose hrest (.refl _)

theorem found_throwing (start : Span) (h : e.Derives ts) (hclose : Closes last close) :
    (statement last (.throw e (start.cover e.span))).Found
      (⟨.keyword .throwWord, start⟩ :: (ts ++ close)) := by
  intro room rest hrest
  have hexpr := h.parsed room (close ++ rest) (stops_of_closes hclose hrest)
  rw [statement_ofRoom, List.cons_append, List.append_assoc]
  exact hexpr.bind (leadsTo_takeEnd hclose hrest (.refl _))

/-- Tokens that an expression starts with are no declaration, if what follows them shows the end. -/
theorem statementWith_of_derives {exprs : ExprLevel} {inner : Option StmtLevel} {rest : List Token}
    (h : e.Derives ts) (hname : (current rest).kind.isName = false) (hstop : NoSuffix rest) :
    statementWith exprs inner (ts ++ rest) = assignOrExpr exprs (ts ++ rest) := by
  rw [statementWith_eq (opensExpr_append (ExprPhrase.Derives.opens h) rest),
    declarationHead?_eq_none (ExprPhrase.Derives.apart h) hname hstop.noMember]

theorem found_expr (h : e.Derives ts) (hclose : Closes last close) :
    (statement last (.expr e e.span)).Found (ts ++ close) := by
  intro room rest hrest
  have hstop := stops_of_closes hclose hrest
  have hexpr := h.parsed room (close ++ rest) hstop
  have hname : (current (close ++ rest)).kind.isName = false := by
    rcases current_of_closes hclose hrest with hkind | hkind <;> simp [hkind, TokenKind.isName]
  have hop : assignOp? (current (close ++ rest)) = none := by
    rcases current_of_closes hclose hrest with hkind | hkind <;>
      simp [assignOp?, hkind, AssignOp.ofSymbol?]
  rw [statement_ofRoom, List.append_assoc, statementWith_of_derives h hname hstop.toNoSuffix]
  refine hexpr.bind ?_
  dsimp only
  rw [hop]
  exact leadsTo_takeEnd hclose hrest (.refl _)

theorem found_assign {value : Expr} (op : AssignOp) (mark : Span) (h : e.Derives ts)
    (hvalue : value.Derives us) (hclose : Closes last close) :
    (statement last (.assign op e value (e.span.cover value.span))).Found
      (ts ++ ⟨.symbol op.symbol, mark⟩ :: (us ++ close)) := by
  intro room rest hrest
  have hstop : Stops 0 (⟨.symbol op.symbol, mark⟩ :: (us ++ (close ++ rest))) := by
    cases op <;> exact .of_none rfl rfl rfl 0
  have htarget := h.parsed room _ hstop
  have hexpr := hvalue.parsed room (close ++ rest) (stops_of_closes hclose hrest)
  have hop : assignOp? (current (⟨.symbol op.symbol, mark⟩ :: (us ++ (close ++ rest)))) = some op :=
    op.ofSymbol?_symbol
  simp only [List.append_assoc, List.cons_append]
  rw [statement_ofRoom, statementWith_of_derives h rfl hstop.toNoSuffix]
  refine htarget.bind ?_
  dsimp only
  rw [hop]
  exact hexpr.bind (leadsTo_takeEnd hclose hrest (.refl _))

/-! ## Blocks and branches -/

section Blocks

variable {b : Block} {o : Otherwise} {br : Branch} {vs : List Token}

theorem leadsTo_condition (opening close : Span) (h : e.Derives ts) (room : Nat)
    (rest : List Token) : LeadsTo (condition (ExprLevel.ofRoom room)
      (⟨.symbol .openParen, opening⟩ :: (ts ++ ⟨.symbol .closeParen, close⟩ :: rest)))
      (.ok (e, rest)) := by
  have hexpr := h.parsed room (⟨.symbol .closeParen, close⟩ :: rest) (.of_none rfl rfl rfl 0)
  exact leadsTo_takeSymbol (hexpr.bind (leadsTo_takeSymbol (.refl _)))

theorem found_ofBranch (h : (branch br).Derives ts) (hfound : (branch br).Found ts) :
    (statement last (.branch br.condition br.block.body br.block.span br.otherwise br.span)).Found
      ts := by
  intro room rest hrest
  have hbranch := hfound room rest hrest.noElse
  have hif : (current (ts ++ rest)).kind = .keyword .ifWord :=
    kind_current_append h.opens rfl rest
  rw [branch_ofRoom] at hbranch
  rw [statement_ofRoom, statementWith, hif]
  exact hbranch.bind (.refl _)

theorem found_ofBlock (h : (block b).Derives ts) (hfound : (block b).Found ts) :
    (statement last (.block b.body b.span)).Found ts := by
  intro room rest hrest
  have hbrace : (current (ts ++ rest)).kind = .symbol .openBrace :=
    kind_current_append h.opens rfl rest
  rw [statement_ofRoom, statementWith, hbrace]
  exact (hfound room rest).bind (.refl _)

theorem found_loop (start opening close : Span) (h : e.Derives ts) (hfound : (block b).Found us) :
    (statement last (.loop e b.body b.span (start.cover b.span))).Found
      (⟨.keyword .whileWord, start⟩ :: ⟨.symbol .openParen, opening⟩ ::
        (ts ++ ⟨.symbol .closeParen, close⟩ :: us)) := by
  intro room rest hrest
  have hcondition := leadsTo_condition opening close h room (us ++ rest)
  simp only [List.cons_append, List.append_assoc]
  rw [statement_ofRoom]
  refine hcondition.bind ?_
  exact (hfound room rest).bind (.refl _)

theorem found_branch (start opening close : Span) (h : e.Derives ts) (hblock : (block b).Found us)
    (ho : (otherwise o).Found vs) : (branch ⟨e, b, o, start.cover (o.span?.getD b.span)⟩).Found
      (⟨.keyword .ifWord, start⟩ :: ⟨.symbol .openParen, opening⟩ ::
        (ts ++ ⟨.symbol .closeParen, close⟩ :: (us ++ vs))) := by
  intro room rest hrest
  have hcondition := leadsTo_condition opening close h room (us ++ (vs ++ rest))
  simp only [List.cons_append, List.append_assoc]
  rw [branch_ofRoom]
  refine hcondition.bind ?_
  refine (hblock room (vs ++ rest)).bind ?_
  exact (ho room rest hrest).bind (.refl _)

theorem found_nothing : (otherwise .nothing).Found [] := by
  intro room rest hrest
  rw [List.nil_append, StmtLevel.otherwise, hrest]
  exact .refl _

theorem found_otherwiseBlock (word : Span) (h : (block b).Derives ts)
    (hfound : (block b).Found ts) :
    (otherwise (.block b.body b.span)).Found (⟨.keyword .elseWord, word⟩ :: ts) := by
  intro room rest hrest
  have hif : atKeyword .ifWord (ts ++ rest) = false := by
    rw [atKeyword, kind_current_append h.opens rfl rest]
    rfl
  rw [List.cons_append, StmtLevel.otherwise, atKeyword_cons, if_pos (by decide), List.drop_one,
    List.tail_cons, hif]
  exact (hfound room rest).bind (.refl _)

theorem found_otherwiseBranch (word : Span) (h : (branch br).Derives ts)
    (hfound : (branch br).Found ts) :
    (otherwise (.branch br.condition br.block.body br.block.span br.otherwise br.span)).Found
      (⟨.keyword .elseWord, word⟩ :: ts) := by
  intro room rest hrest
  have hif : (current (ts ++ rest)).kind = .keyword .ifWord :=
    kind_current_append h.opens rfl rest
  rw [List.cons_append, StmtLevel.otherwise, atKeyword_cons, if_pos (by decide), List.drop_one,
    List.tail_cons, atKeyword, if_pos (beq_iff_eq.2 hif)]
  cases room with
  | zero => exact AtLimit.leadsTo ⟨_, rfl, rfl, by rw [hif]; rfl⟩
  | succ room => exact (hfound room rest hrest).bind (.refl _)

theorem found_block {body : List Stmt} (opening close : Span)
    (hbody : (statements false body).Found ts) : (block ⟨body, opening.cover close⟩).Found
      (⟨.symbol .openBrace, opening⟩ :: (ts ++ [⟨.symbol .closeBrace, close⟩])) := by
  intro room rest
  simp only [List.cons_append, List.append_assoc, List.nil_append]
  cases room with
  | zero => exact AtLimit.leadsTo ⟨_, rfl, rfl, rfl⟩
  | succ room =>
    have hstatements := hbody room (ts ++ ⟨.symbol .closeBrace, close⟩ :: rest).length
      (⟨.symbol .closeBrace, close⟩ :: rest) (by simp) ⟨rfl, nofun⟩ rfl
    exact leadsTo_takeSymbol (hstatements.bind (leadsTo_takeSymbol (.refl _)))

end Blocks

/-! ## Statements in a row -/

theorem found_nil (last : Bool) : (statements last []).Found [] := by
  intro room fuel rest _ _ hend
  rw [List.nil_append]
  cases fuel with
  | zero => exact .refl _
  | succ fuel =>
    rw [StmtLevel.statements, if_pos hend]
    exact .refl _

/-- The first of some statements, and then the others. -/
theorem leadsTo_statements {s : Stmt} {body : List Stmt} {statement : Parser Stmt} {fuel : Nat}
    {ts us rest : List Token} (hopens : (current ts).kind.opensStmt)
    (hfirst : LeadsTo (statement ts) (.ok (s, us)))
    (hmore : LeadsTo (StmtLevel.statements statement fuel us) (.ok (body, rest))) :
    LeadsTo (StmtLevel.statements statement (fuel + 1) ts) (.ok (s :: body, rest)) := by
  have hend : (atSymbol .closeBrace ts || atEnd ts) = false := by
    rw [atSymbol, TokenKind.beq_eq_false_of_opensStmt hopens rfl, Bool.false_or]
    exact TokenKind.beq_eq_false_of_opensStmt hopens rfl
  rw [StmtLevel.statements, hend, if_neg Bool.false_ne_true]
  exact hfirst.bind (hmore.bind (.refl _))

theorem exists_succ_of_length {fuel n : Nat} {ts : List Token}
    (hopens : (current ts).kind.opensStmt) (h : ts.length + n ≤ fuel) :
    ∃ fuel', fuel = fuel' + 1 ∧ n ≤ fuel' := by
  have hpos := List.length_pos_of_ne_nil
    (ne_nil_of_proper (TokenKind.isProper_of_opensStmt hopens))
  exact ⟨fuel - 1, by omega, by omega⟩

theorem found_single {s : Stmt} (h : (statement last s).Derives ts)
    (hfound : (statement last s).Found ts) : (statements last [s]).Found ts := by
  intro room fuel rest hlength hrest hend
  rw [← Nat.add_zero ts.length] at hlength
  obtain ⟨fuel, rfl, -⟩ := exists_succ_of_length h.opens hlength
  have hmore := found_nil last room fuel rest (Nat.zero_le _) hrest hend
  exact leadsTo_statements (opensStmt_append h.opens rest) (hfound room rest hrest) hmore

theorem found_cons {s : Stmt} {body : List Stmt} (h : (statement false s).Derives ts)
    (hbody : (statements last body).Derives us) (hfound : (statement false s).Found ts)
    (hmore : (statements last body).Found us) : (statements last (s :: body)).Found (ts ++ us) := by
  intro room fuel rest hlength hrest hend
  rw [List.length_append] at hlength
  obtain ⟨fuel, rfl, hfuel⟩ := exists_succ_of_length h.opens hlength
  have hfollows : Follows false (us ++ rest) := by
    refine ⟨?_, nofun⟩
    rcases hbody.opens with rfl | hopens
    · exact hrest.noElse
    · exact TokenKind.beq_eq_false_of_opensStmt (opensStmt_append hopens rest) rfl
  rw [List.append_assoc]
  exact leadsTo_statements (opensStmt_append h.opens _) (hfound room _ hfollows)
    (hmore room fuel rest hfuel hrest hend)

/-! ## All phrases -/

/-- **Derived phrases are found.** -/
theorem Derives.found {p : StmtPhrase} (h : p.Derives ts) : p.Found ts := by
  induction h with
  | untyped start mark name h hclose => exact found_untyped start mark name h hclose
  | typed name hpath hinit hclose => exact found_typed name hpath hinit hclose
  | giveBackNothing start hclose => exact found_giveBackNothing start hclose
  | giveBack start h hclose => exact found_giveBack start h hclose
  | throwing start h hclose => exact found_throwing start h hclose
  | expr h hclose => exact found_expr h hclose
  | assign op mark h h' hclose => exact found_assign op mark h h' hclose
  | ofBranch h ih => exact found_ofBranch h ih
  | loop start opening close h _ ih => exact found_loop start opening close h ih
  | ofBlock h ih => exact found_ofBlock h ih
  | branch start opening close h _ _ ih ih' => exact found_branch start opening close h ih ih'
  | nothing => exact found_nothing
  | otherwiseBlock word h ih => exact found_otherwiseBlock word h ih
  | otherwiseBranch word h ih => exact found_otherwiseBranch word h ih
  | block opening close _ ih => exact found_block opening close ih
  | nil => exact found_nil _
  | single h ih => exact found_single h ih
  | cons h h' ih ih' => exact found_cons h h' ih ih'

end StmtPhrase

end Dossier.Script
