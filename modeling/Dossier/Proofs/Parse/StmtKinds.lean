import Dossier.Proofs.Parse.ExprKinds
import Dossier.Proofs.Parse.StmtSound
import Dossier.Script.Parse.Body

/-!
# Bodies without their places

Statements and whole bodies are parsed from the kinds of their tokens as well, whatever their places:
`ParsesAlike` is proved for the parsers of statements, and `parseTokens_congr` says that bodies with
tokens of the same kinds have the same statements, up to their places, and errors with the same
messages.
-/

set_option autoImplicit false

namespace Dossier.Script

open Text (Span)

/-! ## Trees without places -/

/-- The name of a type without its place. -/
def TypeName.bare (t : TypeName) : TypeName := ⟨t.segments.map Name.bare, nowhere⟩

mutual

/-- The statement without the places of its parts. -/
def Stmt.bare : Stmt → Stmt
  | .declare name type init _ =>
    .declare name.bare (type.map TypeName.bare) (init.map Expr.bare) nowhere
  | .assign op target value _ => .assign op target.bare value.bare nowhere
  | .giveBack value _ => .giveBack (value.map Expr.bare) nowhere
  | .branch condition body _ otherwise _ =>
    .branch condition.bare (bareBody body) nowhere otherwise.bare nowhere
  | .loop condition body _ _ => .loop condition.bare (bareBody body) nowhere nowhere
  | .throw value _ => .throw value.bare nowhere
  | .block body _ => .block (bareBody body) nowhere
  | .expr e _ => .expr e.bare nowhere

/-- What follows the block of a branch, without places. -/
def Otherwise.bare : Otherwise → Otherwise
  | .nothing => .nothing
  | .block body _ => .block (bareBody body) nowhere
  | .branch condition body _ otherwise _ =>
    .branch condition.bare (bareBody body) nowhere otherwise.bare nowhere

/-- Statements without the places of their parts. -/
def bareBody : List Stmt → List Stmt
  | [] => []
  | s :: ss => s.bare :: bareBody ss

end

/-- A block without places. -/
def Block.bare (b : Block) : Block := ⟨bareBody b.body, nowhere⟩

/-- A branch without places. -/
def Branch.bare (b : Branch) : Branch :=
  ⟨b.condition.bare, b.block.bare, b.otherwise.bare, nowhere⟩

theorem Block.bareBody_eq {a b : Block} (h : a.bare = b.bare) :
    bareBody a.body = bareBody b.body := congrArg Block.body h

/-- What a branch is without places, in terms of its parts. -/
theorem Branch.bare_eq_iff {a b : Branch} : a.bare = b.bare ↔
    a.condition.bare = b.condition.bare ∧ bareBody a.block.body = bareBody b.block.body ∧
      a.otherwise.bare = b.otherwise.bare := by
  simp [bare, Block.bare]

namespace StmtLevel

/-! ## Simple statements -/

theorem parsesAlike_takeEnd : ParsesAlike id takeEnd takeEnd := by
  intro ts us h
  rw [takeEnd, takeEnd, h.atSymbol_eq, h.atEnd_eq]
  refine .ite (fun _ ↦ .ok rfl h.drop_one) fun _ ↦ .ite (fun _ ↦ .ok rfl h) fun _ ↦ ?_
  exact parsesAlike_complain _ _ _ h

/-- The end of a simple statement, and then its tree. -/
theorem sameOutcome_takeEnd (s s' : Stmt) (hs : s.bare = s'.bare) {ts us : List Token}
    (h : SameKinds ts us) :
    SameOutcome Stmt.bare (takeEnd ts >>= fun taken ↦ Except.ok (s, taken.2))
      (takeEnd us >>= fun taken ↦ Except.ok (s', taken.2)) :=
  (parsesAlike_takeEnd ts us h).bind fun _ _ _ _ _ h ↦ .ok hs h

/-- The names of a declaration are found, or not, in tokens of the same kinds. -/
theorem declarationHead?_congr {ts us : List Token} (h : SameKinds ts us) :
    (declarationHead? ts = none ∧ declarationHead? us = none) ∨
    ∃ segments segments' name name' rest rest',
      declarationHead? ts = some (segments, name, rest) ∧
      declarationHead? us = some (segments', name', rest') ∧
      segments.map Name.bare = segments'.map Name.bare ∧ name.bare = name'.bare ∧
      SameKinds rest rest' := by
  fun_induction declarationHead? ts generalizing us with
  | case1 text span point ts ih =>
    obtain ⟨span', us₁, rfl, h₁⟩ := exists_of_sameKinds_cons h
    obtain ⟨point', us₂, rfl, h₂⟩ := exists_of_sameKinds_cons h₁
    rcases ih h₂ with ⟨hnone, hnone'⟩ | ⟨segments, segments', name, name', rest, rest', hsome,
      hsome', hsegments, hname, hrest⟩
    · exact .inl ⟨by rw [hnone]; rfl, by rw [declarationHead?, hnone']; rfl⟩
    · refine .inr ⟨⟨text, span⟩ :: segments, ⟨text, span'⟩ :: segments', name, name', rest, rest', ?_⟩
      refine ⟨by rw [hsome]; rfl, by rw [declarationHead?, hsome']; rfl, ?_, hname, hrest⟩
      rw [List.map_cons, List.map_cons, hsegments]
      rfl
  | case2 text span name nameSpan t ts ht =>
    obtain ⟨span', us₁, rfl, h₁⟩ := exists_of_sameKinds_cons h
    obtain ⟨nameSpan', us₂, rfl, h₂⟩ := exists_of_sameKinds_cons h₁
    obtain ⟨kind, place⟩ := t
    obtain ⟨place', us₃, rfl, -⟩ := exists_of_sameKinds_cons h₂
    refine .inr ⟨_, [⟨text, span'⟩], _, ⟨name, nameSpan'⟩, _, ⟨kind, place'⟩ :: us₃, rfl, ?_, rfl, rfl, h₂⟩
    exact if_pos ht
  | case3 text span name nameSpan t ts ht =>
    obtain ⟨span', us₁, rfl, h₁⟩ := exists_of_sameKinds_cons h
    obtain ⟨nameSpan', us₂, rfl, h₂⟩ := exists_of_sameKinds_cons h₁
    obtain ⟨kind, place⟩ := t
    obtain ⟨place', us₃, rfl, -⟩ := exists_of_sameKinds_cons h₂
    exact .inl ⟨rfl, if_neg ht⟩
  | case4 ts hdot hnames =>
    -- a head in the other tokens would be one here
    refine .inl ⟨rfl, ?_⟩
    unfold declarationHead?
    split
    · obtain ⟨span, ts₁, rfl, h₁⟩ := exists_of_sameKinds_cons h.symm
      obtain ⟨point, ts₂, rfl, -⟩ := exists_of_sameKinds_cons h₁
      exact absurd rfl (hdot _ span point ts₂)
    · obtain ⟨span, ts₁, rfl, h₁⟩ := exists_of_sameKinds_cons h.symm
      obtain ⟨nameSpan, ts₂, rfl, h₂⟩ := exists_of_sameKinds_cons h₁
      obtain ⟨t, ts₃, rfl, -⟩ := List.map_eq_cons_iff.1 h₂.symm
      exact absurd rfl (hnames _ span _ nameSpan t ts₃)
    · rfl

section Simple

variable {exprs : ExprLevel} (he : ParsesAlike Expr.bare exprs.expression exprs.expression)

include he

theorem parsesAlike_untyped (start start' : Span) :
    ParsesAlike Stmt.bare (untyped exprs start) (untyped exprs start') := by
  intro ts us h
  refine (parsesAlike_takeName ts us h).bind fun n n' ts us hn h ↦ ?_
  refine (parsesAlike_takeSymbol _ ts us h).bind fun _ _ ts us _ h ↦ ?_
  refine (he ts us h).bind fun init init' ts us hinit h ↦ ?_
  exact sameOutcome_takeEnd _ _ (by simp only [Stmt.bare, Option.map_some, hn, hinit]) h

theorem parsesAlike_typed {segments segments' : List Name} {name name' : Name}
    (hsegments : segments.map Name.bare = segments'.map Name.bare)
    (hname : name.bare = name'.bare) :
    ParsesAlike Stmt.bare (typed exprs segments name) (typed exprs segments' name') := by
  intro ts us h
  have htype (span span' : Span) :
      (TypeName.mk segments span).bare = (TypeName.mk segments' span').bare := by
    rw [TypeName.bare, TypeName.bare, hsegments]
  rw [typed, typed, h.atSymbol_eq]
  refine .ite (fun _ ↦ ?_) fun _ ↦ ?_
  · refine (he _ _ h.drop_one).bind fun init init' ts us hinit h ↦ ?_
    refine sameOutcome_takeEnd _ _ ?_ h
    simp only [Stmt.bare, Option.map_some, hname, hinit, htype _ (coverNames segments')]
  · refine sameOutcome_takeEnd _ _ ?_ h
    simp only [Stmt.bare, Option.map_some, hname, htype _ (coverNames segments')]

theorem parsesAlike_giveBack (start start' : Span) :
    ParsesAlike Stmt.bare (giveBack exprs start) (giveBack exprs start') := by
  intro ts us h
  rw [giveBack, giveBack, h.atSymbol_eq, h.atEnd_eq]
  refine .ite (fun _ ↦ ?_) fun _ ↦ ?_
  · exact sameOutcome_takeEnd (.giveBack none start) (.giveBack none start') rfl h
  · refine (he ts us h).bind fun value value' ts us hvalue h ↦ ?_
    exact sameOutcome_takeEnd _ _ (by simp only [Stmt.bare, Option.map_some, hvalue]) h

theorem parsesAlike_throwing (start start' : Span) :
    ParsesAlike Stmt.bare (throwing exprs start) (throwing exprs start') := by
  intro ts us h
  refine (he ts us h).bind fun value value' ts us hvalue h ↦ ?_
  exact sameOutcome_takeEnd _ _ (by simp only [Stmt.bare, hvalue]) h

omit he in
theorem assignOp?_congr {t u : Token} (h : t.kind = u.kind) : assignOp? t = assignOp? u := by
  rw [assignOp?, assignOp?, h]

theorem parsesAlike_assignOrExpr :
    ParsesAlike Stmt.bare (assignOrExpr exprs) (assignOrExpr exprs) := by
  intro ts us h
  refine (he ts us h).bind fun e e' ts us hexpr h ↦ ?_
  dsimp only
  rw [assignOp?_congr h.kind_current]
  split
  · refine (he _ _ h.drop_one).bind fun value value' ts us hvalue h ↦ ?_
    exact sameOutcome_takeEnd _ _ (by simp only [Stmt.bare, hexpr, hvalue]) h
  · exact sameOutcome_takeEnd _ _ (by simp only [Stmt.bare, hexpr]) h

theorem parsesAlike_condition :
    ParsesAlike Expr.bare (condition exprs) (condition exprs) := by
  intro ts us h
  refine (parsesAlike_takeSymbol _ ts us h).bind fun _ _ ts us _ h ↦ ?_
  refine (he ts us h).bind fun e e' ts us hexpr h ↦ ?_
  exact (parsesAlike_takeSymbol _ ts us h).bind fun _ _ ts us _ h ↦ .ok hexpr h

end Simple

/-! ## Blocks and branches -/

theorem parsesAlike_statements {statement : Parser Stmt}
    (hs : ParsesAlike Stmt.bare statement statement) (fuel : Nat) :
    ParsesAlike bareBody (statements statement fuel) (statements statement fuel) := by
  induction fuel with
  | zero => exact fun _ _ h ↦ .ok rfl h
  | succ fuel ih =>
    intro ts us h
    rw [statements, statements, h.atSymbol_eq, h.atEnd_eq]
    refine .ite (fun _ ↦ .ok rfl h) fun _ ↦ ?_
    refine (hs ts us h).bind fun s s' ts us hfirst h ↦ ?_
    refine (ih ts us h).bind fun ss ss' ts us hmore h ↦ ?_
    exact .ok (by rw [bareBody, bareBody, hfirst, hmore]) h

/-- The parsers of a level do not see places. -/
structure Blind (level : StmtLevel) : Prop where
  statement : ParsesAlike Stmt.bare level.statement level.statement
  branch : ParsesAlike Branch.bare level.branch level.branch

/-- Neither do those of the level below, if there is one. -/
def BlindBelow (inner : Option StmtLevel) : Prop := ∀ level ∈ inner, level.Blind

variable {inner : Option StmtLevel}

theorem parsesAlike_deeper {α γ : Type} {f : α → γ} {p : StmtLevel → Parser α}
    (hi : BlindBelow inner)
    (h : ∀ level : StmtLevel, level.Blind → ParsesAlike f (p level) (p level)) :
    ParsesAlike f (deeper inner p) (deeper inner p) := by
  cases inner with
  | none => exact parsesAlike_complain .tooComplex
  | some level => exact h level (hi level rfl)

theorem parsesAlike_block (hi : BlindBelow inner) :
    ParsesAlike Block.bare (block inner) (block inner) := by
  refine parsesAlike_deeper hi fun level hlevel ts us h ↦ ?_
  refine (parsesAlike_takeSymbol _ ts us h).bind fun _ _ ts us _ h ↦ ?_
  dsimp only
  rw [h.length_eq]
  refine (parsesAlike_statements hlevel.statement _ ts us h).bind fun ss ss' ts us hbody h ↦ ?_
  refine (parsesAlike_takeSymbol _ ts us h).bind fun _ _ ts us _ h ↦ ?_
  exact .ok (by rw [Block.bare, Block.bare, hbody]) h

theorem parsesAlike_otherwise (hi : BlindBelow inner) :
    ParsesAlike Otherwise.bare (otherwise inner) (otherwise inner) := by
  intro ts us h
  rw [otherwise, otherwise, h.atKeyword_eq, h.drop_one.atKeyword_eq]
  refine .ite (fun _ ↦ .ite (fun _ ↦ ?_) fun _ ↦ ?_) fun _ ↦ .ok rfl h
  · have hbranch := parsesAlike_deeper hi (fun _ hlevel ↦ hlevel.branch) _ _ h.drop_one
    refine hbranch.bind fun b b' ts us hb h ↦ .ok ?_ h
    obtain ⟨hcondition, hbody, hotherwise⟩ := Branch.bare_eq_iff.1 hb
    simp only [Otherwise.bare, hcondition, hbody, hotherwise]
  · refine (parsesAlike_block hi _ _ h.drop_one).bind fun b b' ts us hb h ↦ .ok ?_ h
    simp only [Otherwise.bare, Block.bareBody_eq hb]

section Branches

variable {exprs : ExprLevel} (hi : BlindBelow inner)
  (he : ParsesAlike Expr.bare exprs.expression exprs.expression)

include hi he

theorem parsesAlike_branchWith :
    ParsesAlike Branch.bare (branchWith exprs inner) (branchWith exprs inner) := by
  intro ts us h
  refine (parsesAlike_condition he _ _ h.drop_one).bind fun c c' ts us hcondition h ↦ ?_
  refine (parsesAlike_block hi ts us h).bind fun b b' ts us hb h ↦ ?_
  refine (parsesAlike_otherwise hi ts us h).bind fun o o' ts us hotherwise h ↦ .ok ?_ h
  exact Branch.bare_eq_iff.2 ⟨hcondition, Block.bareBody_eq hb, hotherwise⟩

theorem parsesAlike_loop (start start' : Span) :
    ParsesAlike Stmt.bare (loop exprs inner start) (loop exprs inner start') := by
  intro ts us h
  refine (parsesAlike_condition he ts us h).bind fun c c' ts us hcondition h ↦ ?_
  refine (parsesAlike_block hi ts us h).bind fun b b' ts us hb h ↦ .ok ?_ h
  simp only [Stmt.bare, hcondition, Block.bareBody_eq hb]

/-! ## The parsers of a level -/

theorem parsesAlike_statementWith :
    ParsesAlike Stmt.bare (statementWith exprs inner) (statementWith exprs inner) := by
  intro ts us h
  rw [statementWith, statementWith, h.kind_current]
  split
  · exact parsesAlike_untyped he _ _ _ _ h.drop_one
  · exact parsesAlike_giveBack he _ _ _ _ h.drop_one
  · exact parsesAlike_throwing he _ _ _ _ h.drop_one
  · refine (parsesAlike_branchWith hi he ts us h).bind fun b b' ts us hb h ↦ .ok ?_ h
    obtain ⟨hcondition, hbody, hotherwise⟩ := Branch.bare_eq_iff.1 hb
    simp only [Stmt.bare, hcondition, hbody, hotherwise]
  · exact parsesAlike_loop hi he _ _ _ _ h.drop_one
  · refine (parsesAlike_block hi ts us h).bind fun b b' ts us hb h ↦ .ok ?_ h
    simp only [Stmt.bare, Block.bareBody_eq hb]
  · exact parsesAlike_complain _ _ _ h
  · exact parsesAlike_complain _ _ _ h
  · rcases declarationHead?_congr h with ⟨hnone, hnone'⟩ | ⟨segments, segments', name, name', rest,
      rest', hsome, hsome', hsegments, hname, hrest⟩
    · rw [hnone, hnone']
      exact parsesAlike_assignOrExpr he ts us h
    · rw [hsome, hsome']
      exact parsesAlike_typed he hsegments hname rest rest' hrest

end Branches

/-- **A level does not see places if the next one does not.** -/
theorem blind_above (hi : BlindBelow inner)
    (he : (ExprLevel.above (inner.map StmtLevel.exprs)).Blind) : (above inner).Blind where
  statement := parsesAlike_statementWith hi he.expression
  branch := parsesAlike_branchWith hi he.expression

/-- **No level sees places.** -/
theorem blind_ofRoom (room : Nat) : (ofRoom room).Blind := by
  have he := ExprLevel.blind_ofRoom room
  rw [← exprs_ofRoom] at he
  induction room with
  | zero => exact blind_above (by simp [BlindBelow]) he
  | succ room ih =>
    refine blind_above (fun level hlevel ↦ ?_) he
    obtain rfl := Option.some.inj hlevel
    refine ih ?_
    rw [exprs_ofRoom]
    exact ExprLevel.blind_ofRoom room

end StmtLevel

/-! ## Bodies -/

theorem sameKinds_afterStatement {ts us : List Token} (h : SameKinds ts us) (depth : Nat) :
    SameKinds (afterStatement depth ts) (afterStatement depth us) := by
  induction ts generalizing us depth with
  | nil =>
    obtain rfl := List.map_eq_nil_iff.1 h.symm
    exact h
  | cons t ts ih =>
    obtain ⟨kind, span⟩ := t
    obtain ⟨span', vs, rfl, hvs⟩ := exists_of_sameKinds_cons h
    cases kind with
    | symbol mark =>
      cases mark with
      | openBrace => exact ih hvs _
      | closeBrace =>
        simp only [afterStatement]
        split
        · exact ih hvs _
        · exact hvs
      | semicolon =>
        simp only [afterStatement]
        split
        · exact hvs
        · exact ih hvs _
      | _ => exact ih hvs _
    | done => exact h
    | _ => exact ih hvs _

/-- The body without the places of its parts, and the messages of its errors. -/
def ParsedBody.bare (b : ParsedBody) : List Stmt × List String :=
  (bareBody b.statements, b.errors.map SyntaxError.message)

theorem parseStatements_congr (fuel : Nat) {ts us : List Token} (h : SameKinds ts us) :
    (parseStatements fuel ts).bare = (parseStatements fuel us).bare := by
  induction fuel generalizing ts us with
  | zero => rfl
  | succ fuel ih =>
    have hfirst := (StmtLevel.blind_ofRoom maxNesting).statement ts us h
    rw [parseStatements, parseStatements, h.atEnd_eq]
    split
    · rfl
    · have hafter := ih (sameKinds_afterStatement h 0)
      rw [StmtLevel.outermost]
      generalize (StmtLevel.ofRoom maxNesting).statement ts = x at hfirst ⊢
      generalize (StmtLevel.ofRoom maxNesting).statement us = y at hfirst ⊢
      cases hfirst with
      | ok hs hrest =>
        have hmore := Prod.mk.inj (ih hrest)
        simp only [ParsedBody.bare, bareBody, hs, hmore.1, hmore.2]
      | error ho =>
        have hmore := Prod.mk.inj hafter
        simp only [ParsedBody.bare, List.map_cons, Obstacle.toSyntaxError, ho.message_eq, hmore.1,
          hmore.2]

/-- **Tokens of the same kinds are parsed alike**: the statements are the same up to their places,
and the errors have the same messages. -/
theorem parseTokens_congr {ts us : List Token} (h : SameKinds ts us) :
    (parseTokens ts).bare = (parseTokens us).bare := by
  rw [parseTokens, parseTokens, h.length_eq]
  exact parseStatements_congr _ h

end Dossier.Script
