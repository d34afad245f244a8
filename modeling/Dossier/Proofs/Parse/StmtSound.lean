import Dossier.Proofs.Parse.ExprSound
import Dossier.Proofs.Parse.StmtGrammar

/-!
# Parsed statements are derived

What the parsers of a `StmtLevel` take off the front of a list of tokens can be read as the tree that
they yield.  A statement that needs no semicolon has the end of the body behind it, so that the flag
of its phrase is `atEnd` of what is left.

`declarationHead?_eq_some` says what the look at the tokens of a declaration finds: the same names that
are taken off afterwards.
-/

set_option autoImplicit false

namespace Dossier.Script

open Text (Span)

namespace StmtLevel

/-- The parsers of a level find what they are for. -/
structure Sound (level : StmtLevel) : Prop where
  statement : Finds level.statement fun s us rest ↦ (StmtPhrase.statement (atEnd rest) s).Derives us
  branch : ∀ {ts rest : List Token} {b : Branch}, (current ts).kind = .keyword .ifWord →
    level.branch ts = .ok (b, rest) → ∃ us, ts = us ++ rest ∧ (StmtPhrase.branch b).Derives us

/-- The level below, if there is one, is sound. -/
def Below (inner : Option StmtLevel) : Prop := ∀ level ∈ inner, level.Sound

theorem eq_cons_of_atKeyword {ts : List Token} {word : Keyword} (h : atKeyword word ts = true) :
    ts = ⟨.keyword word, (current ts).span⟩ :: ts.drop 1 :=
  eq_cons_of_current (beq_iff_eq.1 h) nofun

/-- The first token of a list, and what the rest of it is. -/
theorem eq_cons_append {ts us rest : List Token} {kind : TokenKind} (h : (current ts).kind = kind)
    (hkind : kind ≠ .done) (hus : ts.drop 1 = us ++ rest) :
    ts = ⟨kind, (current ts).span⟩ :: us ++ rest := by
  rw [List.cons_append, ← hus]
  exact eq_cons_of_current h hkind

theorem closes_of_takeEnd {ts rest : List Token} (h : takeEnd ts = .ok ((), rest)) :
    ∃ close, ts = close ++ rest ∧ Closes (atEnd rest) close := by
  rw [takeEnd] at h
  split at h
  · rename_i hsemicolon
    cases h
    exact ⟨_, eq_cons_of_atSymbol hsemicolon, .semicolon _ _⟩
  · split at h
    · rename_i hend
      cases h
      refine ⟨[], rfl, ?_⟩
      rw [hend]
      exact .atEnd
    · cases h

/-- What stands behind a simple statement closes it. -/
theorem exists_closes {ts rest : List Token} {s s' : Stmt}
    (h : (takeEnd ts >>= fun taken ↦ pure (s, taken.2)) = .ok (s', rest)) :
    s' = s ∧ ∃ close, ts = close ++ rest ∧ Closes (atEnd rest) close := by
  obtain ⟨⟨_, ts₁⟩, hend, h⟩ := bind_eq_ok_iff.1 h
  cases h
  exact ⟨rfl, closes_of_takeEnd hend⟩

/-- What the tokens of a declaration with a type start with. -/
theorem declarationHead?_eq_some {ts rest : List Token} {segments : List Name} {name : Name}
    (h : declarationHead? ts = some (segments, name, rest)) :
    ∃ us, PathDerives segments us ∧ ts = us ++ ⟨.name name.text, name.span⟩ :: rest := by
  fun_induction declarationHead? ts generalizing segments with
  | case1 text span point ts ih =>
    rw [Option.map_eq_some_iff] at h
    obtain ⟨⟨more, name', rest'⟩, hmore, h⟩ := h
    cases h
    obtain ⟨us, hus, rfl⟩ := ih hmore
    exact ⟨_, .cons ⟨text, span⟩ point hus, rfl⟩
  | case2 text span name' nameSpan t ts ht =>
    cases h
    exact ⟨_, .single ⟨text, span⟩, rfl⟩
  | case3 => cases h
  | case4 => cases h

theorem kind_of_assignOp? {t : Token} {op : AssignOp} (h : assignOp? t = some op) :
    t.kind = .symbol op.symbol := by
  rw [assignOp?] at h
  split at h
  · rename_i mark hkind
    rw [hkind]
    cases mark <;> cases h <;> rfl
  · cases h

/-! ## Simple statements -/

section Simple

variable {exprs : ExprLevel} (he : exprs.Sound)
include he

theorem finds_untyped {start : Span} {ts rest : List Token} {s : Stmt}
    (h : untyped exprs start ts = .ok (s, rest)) : ∃ us, ts = us ++ rest ∧
      (StmtPhrase.statement (atEnd rest) s).Derives (⟨.keyword .varWord, start⟩ :: us) := by
  obtain ⟨⟨name, ts₁⟩, hname, h⟩ := bind_eq_ok_iff.1 h
  obtain ⟨⟨mark, ts₂⟩, hmark, h⟩ := bind_eq_ok_iff.1 h
  obtain ⟨⟨init, ts₃⟩, hinit, h⟩ := bind_eq_ok_iff.1 h
  obtain ⟨rfl, close, rfl, hclose⟩ := exists_closes h
  obtain ⟨us, rfl, hus, -⟩ := he.expression _ _ _ hinit
  rw [eq_cons_of_takeName hname, eq_cons_of_takeSymbol hmark]
  exact ⟨_, by simp, .untyped start mark.span name hus hclose⟩

theorem finds_typed {segments : List Name} {name : Name} {path ts rest : List Token} {s : Stmt}
    (hpath : PathDerives segments path) (h : typed exprs segments name ts = .ok (s, rest)) :
    ∃ us, ts = us ++ rest ∧ (StmtPhrase.statement (atEnd rest) s).Derives
      (path ++ ⟨.name name.text, name.span⟩ :: us) := by
  rw [typed] at h
  split at h
  · rename_i hmark
    obtain ⟨⟨init, ts₁⟩, hinit, h⟩ := bind_eq_ok_iff.1 h
    obtain ⟨_, ⟨⟩, h⟩ := bind_eq_ok_iff.1 h
    obtain ⟨rfl, close, rfl, hclose⟩ := exists_closes h
    obtain ⟨us, hus, hderives, -⟩ := he.expression _ _ _ hinit
    refine ⟨_, ?_, .typed name hpath (.some (current ts).span hderives) hclose⟩
    rw [List.append_assoc]
    exact eq_cons_append (beq_iff_eq.1 hmark) nofun hus
  · obtain ⟨_, ⟨⟩, h⟩ := bind_eq_ok_iff.1 h
    obtain ⟨rfl, close, rfl, hclose⟩ := exists_closes h
    exact ⟨close, rfl, .typed name hpath .none hclose⟩

theorem finds_giveBack {start : Span} {ts rest : List Token} {s : Stmt}
    (h : giveBack exprs start ts = .ok (s, rest)) : ∃ us, ts = us ++ rest ∧
      (StmtPhrase.statement (atEnd rest) s).Derives (⟨.keyword .returnWord, start⟩ :: us) := by
  rw [giveBack] at h
  split at h
  · obtain ⟨_, ⟨⟩, h⟩ := bind_eq_ok_iff.1 h
    obtain ⟨rfl, close, rfl, hclose⟩ := exists_closes h
    exact ⟨close, rfl, .giveBackNothing start hclose⟩
  · obtain ⟨⟨value, ts₁⟩, hvalue, h⟩ := bind_eq_ok_iff.1 h
    obtain ⟨_, ⟨⟩, h⟩ := bind_eq_ok_iff.1 h
    obtain ⟨rfl, close, rfl, hclose⟩ := exists_closes h
    obtain ⟨us, rfl, hus, -⟩ := he.expression _ _ _ hvalue
    exact ⟨us ++ close, (List.append_assoc ..).symm, .giveBack start hus hclose⟩

theorem finds_throwing {start : Span} {ts rest : List Token} {s : Stmt}
    (h : throwing exprs start ts = .ok (s, rest)) : ∃ us, ts = us ++ rest ∧
      (StmtPhrase.statement (atEnd rest) s).Derives (⟨.keyword .throwWord, start⟩ :: us) := by
  obtain ⟨⟨value, ts₁⟩, hvalue, h⟩ := bind_eq_ok_iff.1 h
  obtain ⟨rfl, close, rfl, hclose⟩ := exists_closes h
  obtain ⟨us, rfl, hus, -⟩ := he.expression _ _ _ hvalue
  exact ⟨us ++ close, (List.append_assoc ..).symm, .throwing start hus hclose⟩

theorem finds_assignOrExpr : Finds (assignOrExpr exprs)
    fun s us rest ↦ (StmtPhrase.statement (atEnd rest) s).Derives us := by
  intro ts s rest h
  obtain ⟨⟨e, ts₁⟩, htarget, hstmt⟩ := bind_eq_ok_iff.1 h
  obtain ⟨us, rfl, hus, -⟩ := he.expression _ _ _ htarget
  dsimp only at hstmt
  split at hstmt
  · rename_i op hop
    obtain ⟨⟨value, ts₂⟩, hvalue, hstmt⟩ := bind_eq_ok_iff.1 hstmt
    obtain ⟨rfl, close, rfl, hclose⟩ := exists_closes hstmt
    obtain ⟨vs, hvs, hderives, -⟩ := he.expression _ _ _ hvalue
    refine ⟨_, ?_, .assign op (current ts₁).span hus hderives hclose⟩
    rw [List.append_assoc, List.cons_append, List.append_assoc]
    exact congrArg (us ++ ·) (eq_cons_append (kind_of_assignOp? hop) nofun hvs)
  · obtain ⟨rfl, close, rfl, hclose⟩ := exists_closes hstmt
    exact ⟨us ++ close, (List.append_assoc ..).symm, .expr hus hclose⟩

theorem finds_condition {ts rest : List Token} {e : Expr}
    (h : condition exprs ts = .ok (e, rest)) : ∃ us opening close, e.Derives us ∧
      ts = ⟨.symbol .openParen, opening⟩ :: (us ++ ⟨.symbol .closeParen, close⟩ :: rest) := by
  obtain ⟨⟨opening, ts₁⟩, hopen, h⟩ := bind_eq_ok_iff.1 h
  obtain ⟨⟨inner, ts₂⟩, hinner, h⟩ := bind_eq_ok_iff.1 h
  obtain ⟨⟨close, ts₃⟩, hclose, h⟩ := bind_eq_ok_iff.1 h
  cases h
  obtain ⟨us, rfl, hus, -⟩ := he.expression _ _ _ hinner
  refine ⟨us, opening.span, close.span, hus, ?_⟩
  rw [eq_cons_of_takeSymbol hopen, eq_cons_of_takeSymbol hclose]

end Simple

/-! ## Blocks and branches -/

/-- Behind the end of the body there are no more statements. -/
theorem statements_of_atEnd {statement : Parser Stmt} {fuel : Nat} {ts : List Token}
    (h : atEnd ts = true) : statements statement fuel ts = .ok ([], ts) := by
  cases fuel with
  | zero => rfl
  | succ fuel => rw [statements, h, Bool.or_true, if_pos rfl]

theorem finds_statements {statement : Parser Stmt}
    (hs : Finds statement fun s us rest ↦ (StmtPhrase.statement (atEnd rest) s).Derives us)
    (fuel : Nat) : Finds (statements statement fuel)
      fun body us rest ↦ (StmtPhrase.statements (atEnd rest) body).Derives us := by
  induction fuel with
  | zero =>
    intro ts body rest h
    cases h
    exact ⟨[], rfl, .nil⟩
  | succ fuel ih =>
    intro ts body rest h
    rw [statements] at h
    split at h
    · cases h
      exact ⟨[], rfl, .nil⟩
    · obtain ⟨⟨first, ts₁⟩, hfirst, h⟩ := bind_eq_ok_iff.1 h
      obtain ⟨⟨more, ts₂⟩, hmore, h⟩ := bind_eq_ok_iff.1 h
      cases h
      obtain ⟨us, rfl, hus⟩ := hs _ _ _ hfirst
      cases hend : atEnd ts₁ with
      | true =>
        rw [statements_of_atEnd hend] at hmore
        cases hmore
        exact ⟨us, rfl, .single hus⟩
      | false =>
        rw [hend] at hus
        obtain ⟨vs, rfl, hvs⟩ := ih _ _ _ hmore
        exact ⟨us ++ vs, (List.append_assoc ..).symm, .cons hus hvs⟩

variable {inner : Option StmtLevel}

/-- What is parsed one level deeper is parsed by a sound level. -/
theorem exists_of_deeper {α : Type} {parser : StmtLevel → Parser α} {ts rest : List Token} {a : α}
    (hi : Below inner) (h : deeper inner parser ts = .ok (a, rest)) :
    ∃ level : StmtLevel, level.Sound ∧ parser level ts = .ok (a, rest) := by
  cases inner with
  | none => cases h
  | some level => exact ⟨level, hi level rfl, h⟩

theorem finds_block (hi : Below inner) :
    Finds (block inner) fun b us _ ↦ (StmtPhrase.block b).Derives us := by
  intro ts b rest h
  obtain ⟨level, hlevel, h⟩ := exists_of_deeper hi h
  obtain ⟨⟨opening, ts₁⟩, hopen, h⟩ := bind_eq_ok_iff.1 h
  obtain ⟨⟨body, ts₂⟩, hbody, h⟩ := bind_eq_ok_iff.1 h
  obtain ⟨⟨close, ts₃⟩, hclose, h⟩ := bind_eq_ok_iff.1 h
  cases h
  obtain ⟨us, rfl, hus⟩ := finds_statements hlevel.statement _ _ _ _ hbody
  obtain rfl := eq_cons_of_takeSymbol hclose
  rw [eq_cons_of_takeSymbol hopen]
  exact ⟨⟨.symbol .openBrace, opening.span⟩ :: (us ++ [⟨.symbol .closeBrace, close.span⟩]),
    by simp, .block opening.span close.span hus⟩

theorem finds_otherwise (hi : Below inner) :
    Finds (otherwise inner) fun o us _ ↦ (StmtPhrase.otherwise o).Derives us := by
  intro ts o rest h
  rw [otherwise] at h
  split at h
  · rename_i helse
    have hts := eq_cons_of_atKeyword helse
    split at h
    · rename_i hif
      obtain ⟨⟨b, ts₁⟩, hb, h⟩ := bind_eq_ok_iff.1 h
      cases h
      obtain ⟨level, hlevel, hb⟩ := exists_of_deeper hi hb
      obtain ⟨us, hus, hderives⟩ := hlevel.branch (beq_iff_eq.1 hif) hb
      rw [hus] at hts
      exact ⟨_ :: us, hts, .otherwiseBranch _ hderives⟩
    · obtain ⟨⟨b, ts₁⟩, hb, h⟩ := bind_eq_ok_iff.1 h
      cases h
      obtain ⟨us, hus, hderives⟩ := finds_block hi _ _ _ hb
      rw [hus] at hts
      exact ⟨_ :: us, hts, .otherwiseBlock _ hderives⟩
  · cases h
    exact ⟨[], rfl, .nothing⟩

section Blocks

variable {exprs : ExprLevel} (he : exprs.Sound) (hi : Below inner)
include he hi

theorem finds_branchWith {ts rest : List Token} {b : Branch}
    (hif : (current ts).kind = .keyword .ifWord) (h : branchWith exprs inner ts = .ok (b, rest)) :
    ∃ us, ts = us ++ rest ∧ (StmtPhrase.branch b).Derives us := by
  have hts := eq_cons_of_current hif nofun
  obtain ⟨⟨c, ts₁⟩, hc, h⟩ := bind_eq_ok_iff.1 h
  obtain ⟨⟨body, ts₂⟩, hbody, h⟩ := bind_eq_ok_iff.1 h
  obtain ⟨⟨o, ts₃⟩, ho, h⟩ := bind_eq_ok_iff.1 h
  cases h
  obtain ⟨us, opening, close, hus, hcondition⟩ := finds_condition he hc
  obtain ⟨vs, rfl, hvs⟩ := finds_block hi _ _ _ hbody
  obtain ⟨ws, rfl, hws⟩ := finds_otherwise hi _ _ _ ho
  rw [hcondition] at hts
  refine ⟨_, ?_, .branch (current ts).span opening close hus hvs hws⟩
  simpa using hts

theorem finds_loop {start : Span} {ts rest : List Token} {s : Stmt}
    (h : loop exprs inner start ts = .ok (s, rest)) : ∃ us, ts = us ++ rest ∧
      (StmtPhrase.statement (atEnd rest) s).Derives (⟨.keyword .whileWord, start⟩ :: us) := by
  obtain ⟨⟨c, ts₁⟩, hc, h⟩ := bind_eq_ok_iff.1 h
  obtain ⟨⟨body, ts₂⟩, hbody, h⟩ := bind_eq_ok_iff.1 h
  cases h
  obtain ⟨us, opening, close, hus, rfl⟩ := finds_condition he hc
  obtain ⟨vs, rfl, hvs⟩ := finds_block hi _ _ _ hbody
  exact ⟨_, by simp, .loop start opening close hus hvs⟩

/-! ## The parsers of a level -/

theorem finds_statementWith : Finds (statementWith exprs inner)
    fun s us rest ↦ (StmtPhrase.statement (atEnd rest) s).Derives us := by
  intro ts s rest h
  rw [statementWith] at h
  split at h
  · rename_i hkind
    obtain ⟨us, hus, hderives⟩ := finds_untyped he h
    exact ⟨_, eq_cons_append hkind nofun hus, hderives⟩
  · rename_i hkind
    obtain ⟨us, hus, hderives⟩ := finds_giveBack he h
    exact ⟨_, eq_cons_append hkind nofun hus, hderives⟩
  · rename_i hkind
    obtain ⟨us, hus, hderives⟩ := finds_throwing he h
    exact ⟨_, eq_cons_append hkind nofun hus, hderives⟩
  · rename_i hkind
    obtain ⟨⟨b, ts₁⟩, hb, h⟩ := bind_eq_ok_iff.1 h
    cases h
    obtain ⟨us, rfl, hderives⟩ := finds_branchWith he hi hkind hb
    exact ⟨us, rfl, .ofBranch hderives⟩
  · rename_i hkind
    obtain ⟨us, hus, hderives⟩ := finds_loop he hi h
    exact ⟨_, eq_cons_append hkind nofun hus, hderives⟩
  · obtain ⟨⟨b, ts₁⟩, hb, h⟩ := bind_eq_ok_iff.1 h
    cases h
    obtain ⟨us, rfl, hderives⟩ := finds_block hi _ _ _ hb
    exact ⟨us, rfl, .ofBlock hderives⟩
  · cases h
  · cases h
  · split at h
    · rename_i segments name more hhead
      obtain ⟨path, hpath, rfl⟩ := declarationHead?_eq_some hhead
      obtain ⟨us, rfl, hderives⟩ := finds_typed he hpath h
      exact ⟨_, by simp, hderives⟩
    · exact finds_assignOrExpr he _ _ _ h

end Blocks

/-! ## All levels -/

/-- The level below one with so much room. -/
def below : (room : Nat) → Option StmtLevel
  | 0 => none
  | room + 1 => some (ofRoom room)

theorem exprs_below (room : Nat) :
    ExprLevel.above ((below room).map StmtLevel.exprs) = ExprLevel.ofRoom room := by
  cases room with
  | zero => rfl
  | succ room =>
    rw [below, Option.map_some, exprs_ofRoom]
    rfl

theorem ofRoom_eq_above (room : Nat) : ofRoom room = above (below room) := by
  cases room <;> rfl

theorem statement_ofRoom (room : Nat) :
    (ofRoom room).statement = statementWith (ExprLevel.ofRoom room) (below room) := by
  rw [ofRoom_eq_above, ← exprs_below]
  rfl

theorem branch_ofRoom (room : Nat) :
    (ofRoom room).branch = branchWith (ExprLevel.ofRoom room) (below room) := by
  rw [ofRoom_eq_above, ← exprs_below]
  rfl

/-- **All levels are sound.** -/
theorem sound_ofRoom (room : Nat) : (ofRoom room).Sound := by
  have hstep {room : Nat} (hi : Below (below room)) : (ofRoom room).Sound := {
    statement := by
      rw [statement_ofRoom]
      exact finds_statementWith (ExprLevel.sound_ofRoom room) hi
    branch := by
      rw [branch_ofRoom]
      exact finds_branchWith (ExprLevel.sound_ofRoom room) hi }
  induction room with
  | zero => exact hstep (by simp [Below, below])
  | succ room ih =>
    refine hstep fun level hlevel ↦ ?_
    obtain rfl := Option.some.inj hlevel
    exact ih

end StmtLevel

end Dossier.Script
