import Dossier.Proofs.Parse.Append

/-!
# What a branch that cannot be parsed costs

When a statement cannot be parsed, its end is looked for from its first token on.  Of a branch the end
is taken to be the brace that closes its first block, although words `else` may follow, with more of
the same statement.  So each of them is met where a statement should start, and is an error again.

* `BranchText` are the tokens of a branch with all that belongs to it: conditions in parentheses and
  blocks in braces, of which nothing is assumed but that their braces belong together.
* `afterStatement_arm` says how far the search goes if the condition is plain: behind the first block.
  If it is not, the search ends in the condition (`plain_or_ends_within`).
* `failed_branch_costs` is the result: one error and one more for each `else`, so that the whole costs
  one error only if there is no `else`.
-/

set_option autoImplicit false

namespace Dossier.Script

open Text (Span)
open StmtLevel

/-! ## The tokens of a branch -/

/-- Tokens between braces. -/
structure Braced where
  /-- The place of the opening brace. -/
  opening : Span
  /-- What stands between them. -/
  body : List Token
  /-- The place of the closing brace. -/
  closing : Span

/-- Tokens in parentheses, for a condition, and a block behind them. -/
structure Arm where
  /-- The place of the opening parenthesis. -/
  opening : Span
  /-- What stands between them. -/
  condition : List Token
  /-- The place of the closing parenthesis. -/
  closing : Span
  /-- The block. -/
  block : Braced

/-- What can follow the block of a branch, each with the place of its word `else`. -/
inductive ElseChain where
  | nothing
  | block (word : Span) (block : Braced)
  | branch (word ifWord : Span) (arm : Arm) (rest : ElseChain)

/-- A branch with all that belongs to it. -/
structure BranchText where
  /-- The place of the word `if`. -/
  word : Span
  /-- The first condition and its block. -/
  arm : Arm
  /-- The rest of the chain. -/
  chain : ElseChain

namespace Braced

/-- The tokens, with the braces. -/
def tokens (b : Braced) : List Token :=
  ⟨.symbol .openBrace, b.opening⟩ :: (b.body ++ [⟨.symbol .closeBrace, b.closing⟩])

end Braced

namespace Arm

/-- The tokens, with the parentheses and the braces. -/
def tokens (a : Arm) : List Token :=
  ⟨.symbol .openParen, a.opening⟩ ::
    (a.condition ++ ⟨.symbol .closeParen, a.closing⟩ :: a.block.tokens)

/-- The braces of the condition belong together, and so do those of the block. -/
def IsBalanced (a : Arm) : Prop := Balanced a.condition ∧ Balanced a.block.body

/-- There is no semicolon and no brace in the condition. -/
def IsPlain (a : Arm) : Prop := ∀ t ∈ a.condition, t.isFence = false

end Arm

namespace ElseChain

/-- The tokens, from the first word `else` on. -/
def tokens : ElseChain → List Token
  | nothing => []
  | block word b => ⟨.keyword .elseWord, word⟩ :: b.tokens
  | branch word ifWord arm rest =>
    ⟨.keyword .elseWord, word⟩ :: ⟨.keyword .ifWord, ifWord⟩ :: (arm.tokens ++ rest.tokens)

/-- The braces of all conditions and blocks belong together. -/
def IsBalanced : ElseChain → Prop
  | nothing => True
  | block _ b => Balanced b.body
  | branch _ _ arm rest => arm.IsBalanced ∧ rest.IsBalanced

/-- There is no semicolon and no brace in any condition. -/
def IsPlain : ElseChain → Prop
  | nothing | block _ _ => True
  | branch _ _ arm rest => arm.IsPlain ∧ rest.IsPlain

theorem eq_nothing {c : ElseChain} (h : c.tokens = []) : c = .nothing := by
  cases c with
  | nothing => rfl
  | block | branch => cases h

/-- The places of the words `else`. -/
def words : ElseChain → List Span
  | nothing => []
  | block word _ => [word]
  | branch word _ _ rest => word :: rest.words

end ElseChain

namespace BranchText

/-- The tokens, from the word `if` to the end of the chain. -/
def tokens (b : BranchText) : List Token :=
  ⟨.keyword .ifWord, b.word⟩ :: (b.arm.tokens ++ b.chain.tokens)

/-- The braces of all conditions and blocks belong together. -/
def IsBalanced (b : BranchText) : Prop := b.arm.IsBalanced ∧ b.chain.IsBalanced

/-- There is no semicolon and no brace in any condition. -/
def IsPlain (b : BranchText) : Prop := b.arm.IsPlain ∧ b.chain.IsPlain

end BranchText

/-! ## How far the search goes -/

/-- Tokens without fences are passed over. -/
theorem afterStatement_append {ts : List Token} (hfence : ∀ t ∈ ts, t.isFence = false)
    (hdone : ∀ t ∈ ts, t.kind ≠ .done) (depth : Nat) (us : List Token) :
    afterStatement depth (ts ++ us) = afterStatement depth us := by
  induction ts with
  | nil => rfl
  | cons t ts ih =>
    obtain ⟨ht, hfence⟩ := List.forall_mem_cons.1 hfence
    obtain ⟨htd, hdone⟩ := List.forall_mem_cons.1 hdone
    rw [List.cons_append, afterStatement_cons ht htd, ih hfence hdone]

/-- Within braces, all that is balanced is passed over. -/
theorem Balanced.afterStatement_append {ts : List Token} (h : Balanced ts)
    (hdone : ∀ t ∈ ts, t.kind ≠ .done) (depth : Nat) (us : List Token) :
    afterStatement (depth + 1) (ts ++ us) = afterStatement (depth + 1) us := by
  induction h generalizing depth us with
  | nil => rfl
  | @cons t ts ht _ ih =>
    obtain ⟨htd, hdone⟩ := List.forall_mem_cons.1 hdone
    rw [List.cons_append, ← ih hdone depth us]
    rcases t.semicolon_or ht with hsemicolon | ⟨hfence, -⟩
    · obtain ⟨kind, span⟩ := t
      subst hsemicolon
      rfl
    · exact afterStatement_cons hfence htd _ _
  | @group ts vs opening closing _ _ ih ih' =>
    have hts : ∀ t ∈ ts, t.kind ≠ .done := fun t ht ↦ hdone t (by simp [ht])
    have hvs : ∀ t ∈ vs, t.kind ≠ .done := fun t ht ↦ hdone t (by simp [ht])
    rw [List.cons_append, List.append_assoc, List.cons_append]
    calc afterStatement (depth + 1)
          (⟨.symbol .openBrace, opening⟩ :: (ts ++ ⟨.symbol .closeBrace, closing⟩ :: (vs ++ us)))
        = afterStatement (depth + 2) (ts ++ ⟨.symbol .closeBrace, closing⟩ :: (vs ++ us)) := rfl
      _ = afterStatement (depth + 2) (⟨.symbol .closeBrace, closing⟩ :: (vs ++ us)) := ih hts _ _
      _ = afterStatement (depth + 1) (vs ++ us) := by simp [afterStatement]
      _ = afterStatement (depth + 1) us := ih' hvs _ _

/-- The search ends behind a block. -/
theorem afterStatement_braced {b : Braced} (h : Balanced b.body)
    (hdone : ∀ t ∈ b.tokens, t.kind ≠ .done) (us : List Token) :
    afterStatement 0 (b.tokens ++ us) = us := by
  have hbody : ∀ t ∈ b.body, t.kind ≠ .done := fun t ht ↦ hdone t (by simp [Braced.tokens, ht])
  rw [Braced.tokens, List.cons_append, List.append_assoc]
  exact h.afterStatement_append hbody 0 _

/-- **The search ends behind the first block** if the condition in front of it is plain. -/
theorem afterStatement_arm {a : Arm} (h : a.IsBalanced) (hplain : a.IsPlain)
    (hdone : ∀ t ∈ a.tokens, t.kind ≠ .done) (us : List Token) :
    afterStatement 0 (a.tokens ++ us) = us := by
  have hcondition : ∀ t ∈ a.condition, t.kind ≠ .done := fun t ht ↦
    hdone t (by simp [Arm.tokens, ht])
  have hblock : ∀ t ∈ a.block.tokens, t.kind ≠ .done := fun t ht ↦
    hdone t (by simp [Arm.tokens, ht])
  rw [Arm.tokens, List.cons_append, List.append_assoc, List.cons_append]
  calc afterStatement 0 (⟨.symbol .openParen, a.opening⟩ ::
          (a.condition ++ ⟨.symbol .closeParen, a.closing⟩ :: (a.block.tokens ++ us)))
      = afterStatement 0
          (a.condition ++ ⟨.symbol .closeParen, a.closing⟩ :: (a.block.tokens ++ us)) := rfl
    _ = afterStatement 0 (⟨.symbol .closeParen, a.closing⟩ :: (a.block.tokens ++ us)) :=
        afterStatement_append hplain hcondition 0 _
    _ = afterStatement 0 (a.block.tokens ++ us) := rfl
    _ = us := afterStatement_braced h.2 hblock us

/-- Balanced tokens with a fence hold the end of a statement, whatever stands behind them. -/
theorem Balanced.plain_or_ends_within {ts : List Token} (h : Balanced ts)
    (hdone : ∀ t ∈ ts, t.kind ≠ .done) :
    (∀ t ∈ ts, t.isFence = false) ∨
      ∃ rest, ∀ us, afterStatement 0 (ts ++ us) = rest ++ us := by
  induction h with
  | nil => exact .inl fun _ ht ↦ absurd ht List.not_mem_nil
  | @cons t ts ht _ ih =>
    obtain ⟨htd, hdone⟩ := List.forall_mem_cons.1 hdone
    rcases t.semicolon_or ht with hsemicolon | ⟨hfence, -⟩
    · obtain ⟨kind, span⟩ := t
      subst hsemicolon
      exact .inr ⟨ts, fun _ ↦ rfl⟩
    · refine (ih hdone).imp (fun h ↦ List.forall_mem_cons.2 ⟨hfence, h⟩) ?_
      rintro ⟨rest, h⟩
      exact ⟨rest, fun us ↦ (afterStatement_cons hfence htd 0 _).trans (h us)⟩
  | @group ts vs opening closing h _ _ _ =>
    refine .inr ⟨vs, fun us ↦ ?_⟩
    have hgroup : ⟨.symbol .openBrace, opening⟩ :: (ts ++ ⟨.symbol .closeBrace, closing⟩ :: vs) =
        (⟨opening, ts, closing⟩ : Braced).tokens ++ vs := by simp [Braced.tokens]
    rw [hgroup] at hdone ⊢
    rw [List.append_assoc]
    exact afterStatement_braced h (fun t ht ↦ hdone t (List.mem_append_left _ ht)) _

/-! ## The braces of a branch -/

theorem Braced.balanced {b : Braced} (h : Balanced b.body) : Balanced b.tokens :=
  .group _ _ h .nil

theorem Arm.IsBalanced.balanced {a : Arm} (h : a.IsBalanced) : Balanced a.tokens :=
  .cons rfl (h.1.append (.cons rfl (Braced.balanced h.2)))

theorem ElseChain.IsBalanced.balanced {c : ElseChain} (h : c.IsBalanced) : Balanced c.tokens := by
  induction c with
  | nothing => exact .nil
  | block _ b => exact .cons rfl (Braced.balanced h)
  | branch _ _ arm rest ih => exact .cons rfl (.cons rfl (h.1.balanced.append (ih h.2)))

theorem BranchText.IsBalanced.balanced {b : BranchText} (h : b.IsBalanced) : Balanced b.tokens :=
  .cons rfl (h.1.balanced.append h.2.balanced)

/-- Each part of a branch ends with a brace. -/
theorem Braced.endsStmt_tokens (b : Braced) (front : List Token) : EndsStmt (front ++ b.tokens) := by
  rw [Braced.tokens, ← List.cons_append, ← List.append_assoc]
  exact .concat _ rfl

theorem Arm.endsStmt_tokens (a : Arm) (front : List Token) : EndsStmt (front ++ a.tokens) := by
  have hblock := a.block.endsStmt_tokens
    (front ++ ⟨.symbol .openParen, a.opening⟩ :: a.condition ++ [⟨.symbol .closeParen, a.closing⟩])
  simpa [Arm.tokens] using hblock

theorem ElseChain.endsStmt_tokens {front : List Token} (h : EndsStmt front) (c : ElseChain) :
    EndsStmt (front ++ c.tokens) := by
  induction c generalizing front with
  | nothing => rwa [ElseChain.tokens, List.append_nil]
  | block word b =>
    rw [ElseChain.tokens, List.append_cons]
    exact b.endsStmt_tokens _
  | branch word ifWord arm rest ih =>
    rw [ElseChain.tokens, List.append_cons, List.append_cons, ← List.append_assoc]
    exact ih (arm.endsStmt_tokens _)

theorem BranchText.endsStmt_tokens (b : BranchText) : EndsStmt b.tokens := by
  rw [BranchText.tokens, ← List.cons_append]
  exact b.chain.endsStmt_tokens (b.arm.endsStmt_tokens [⟨.keyword .ifWord, b.word⟩])

/-- **A branch is closed.** -/
theorem BranchText.IsBalanced.closed {b : BranchText} (h : b.IsBalanced) : Closed 0 b.tokens := by
  have hclosed := h.balanced.closed .nil (by rw [List.append_nil]; exact b.endsStmt_tokens)
  rwa [List.append_nil] at hclosed

/-! ## Reading on -/

/-- The message about a word `else` where a statement should start. -/
def misplacedElse (word : Span) : SyntaxError :=
  (⟨.statement, ⟨.keyword .elseWord, word⟩⟩ : Obstacle).toSyntaxError

/-- After a statement that cannot be parsed, reading goes on behind its end. -/
theorem parseTokens_of_error {ts : List Token} {o : Obstacle} (hend : atEnd ts = false)
    (h : outermost.statement ts = .error o) : parseTokens ts =
      ⟨(parseTokens (afterStatement 0 ts)).statements,
        o.toSyntaxError :: (parseTokens (afterStatement 0 ts)).errors⟩ := by
  obtain ⟨t, us, rfl⟩ := List.exists_cons_of_ne_nil (ne_nil_of_atEnd hend)
  have hlength := length_afterStatement 0 hend
  have hmore : parseStatements us.length (afterStatement 0 (t :: us)) =
      parseTokens (afterStatement 0 (t :: us)) :=
    parseStatements_fuel (Nat.le_of_lt_succ hlength) (Nat.le_refl _)
  rw [parseTokens, List.length_cons, parseStatements, if_neg (by simp [hend]), h]
  dsimp only
  rw [hmore]

/-- No statement starts with the word `else`. -/
theorem statement_else (word : Span) (ts : List Token) :
    outermost.statement (⟨.keyword .elseWord, word⟩ :: ts) =
      .error ⟨.statement, ⟨.keyword .elseWord, word⟩⟩ := by
  rw [outermost, statement_ofRoom]
  rfl

/-- **Behind the first block, each word `else` is an error of its own**, and all else that belongs to
the branch is left out. -/
theorem parseTokens_chain {c : ElseChain} (h : c.IsBalanced) (hplain : c.IsPlain)
    (hdone : ∀ t ∈ c.tokens, t.kind ≠ .done) (q : List Token) :
    parseTokens (c.tokens ++ q) =
      ⟨(parseTokens q).statements, c.words.map misplacedElse ++ (parseTokens q).errors⟩ := by
  induction c with
  | nothing => rfl
  | block word b =>
    have hb : ∀ t ∈ b.tokens, t.kind ≠ .done := fun t ht ↦
      hdone t (List.mem_cons_of_mem _ ht)
    have hafter : afterStatement 0 (⟨.keyword .elseWord, word⟩ :: (b.tokens ++ q)) = q :=
      afterStatement_braced h hb q
    rw [ElseChain.tokens, List.cons_append, parseTokens_of_error rfl (statement_else word _), hafter]
    rfl
  | branch word ifWord arm rest ih =>
    have harm : ∀ t ∈ arm.tokens, t.kind ≠ .done := fun t ht ↦
      hdone t (by simp [ElseChain.tokens, ht])
    have hrest : ∀ t ∈ rest.tokens, t.kind ≠ .done := fun t ht ↦
      hdone t (by simp [ElseChain.tokens, ht])
    have hafter : afterStatement 0 (⟨.keyword .elseWord, word⟩ :: ⟨.keyword .ifWord, ifWord⟩ ::
        (arm.tokens ++ (rest.tokens ++ q))) = rest.tokens ++ q :=
      afterStatement_arm h.1 hplain.1 harm _
    rw [ElseChain.tokens, List.cons_append, List.cons_append, List.append_assoc,
      parseTokens_of_error rfl (statement_else word _), hafter, ih h.2 hplain.2 hrest]
    rfl

/-! ## What the branch costs -/

/-- In front of `q`, the tokens add one error and nothing else. -/
def CostsOneError (ts q : List Token) : Prop :=
  ∃ e, parseTokens (ts ++ q) = ⟨(parseTokens q).statements, e :: (parseTokens q).errors⟩

/-- Of some tokens there is at least one statement or error. -/
theorem parseTokens_ne_empty {ts : List Token} (hend : atEnd ts = false) :
    parseTokens ts ≠ ⟨[], []⟩ := by
  cases hs : outermost.statement ts with
  | error o =>
    rw [parseTokens_of_error hend hs]
    simp
  | ok x =>
    obtain ⟨t, us, rfl⟩ := List.exists_cons_of_ne_nil (ne_nil_of_atEnd hend)
    rw [parseTokens, List.length_cons, parseStatements, if_neg (by simp [hend]), hs]
    simp

/-- **Closed tokens cost one error if their first statement cannot be parsed and its end is taken to
be where they end**, and only then. -/
theorem costsOneError_iff {ts q : List Token} {o : Obstacle} (h : Closed 0 ts) (hne : ts ≠ [])
    (hdone : ∀ t ∈ ts, t.kind ≠ .done) (hfail : outermost.statement (ts ++ q) = .error o)
    (hq : atKeyword .elseWord q = false) : CostsOneError ts q ↔ afterStatement 0 ts = [] := by
  obtain ⟨hafter, hrest⟩ := closed_afterStatement h hne hdone q
  have hafterDone : ∀ t ∈ afterStatement 0 ts, t.kind ≠ .done := fun t ht ↦
    hdone t ((afterStatement_suffix 0 ts).subset ht)
  have hparse := parseTokens_of_error ((atEnd_append hne q).trans (atEnd_eq_false hne hdone)) hfail
  rw [hrest, parseTokens_append hafter hafterDone hq] at hparse
  rw [CostsOneError, hparse]
  constructor
  · rintro ⟨e, he⟩
    by_contra hmore
    have hempty : (parseTokens (afterStatement 0 ts)).statements = [] ∧ o.toSyntaxError = e ∧
        (parseTokens (afterStatement 0 ts)).errors = [] := by
      simpa [ParsedBody.append] using he
    refine parseTokens_ne_empty (atEnd_eq_false hmore hafterDone) ?_
    generalize parseTokens (afterStatement 0 ts) = body at hempty ⊢
    obtain ⟨statements, errors⟩ := body
    obtain ⟨rfl, -, rfl⟩ := hempty
    rfl
  · intro hnil
    rw [hnil]
    exact ⟨_, rfl⟩

namespace BranchText

/-- **The end of a branch is found** if there is no `else` and the condition is plain, and only
then. -/
theorem afterStatement_eq_nil_iff {b : BranchText} (h : b.IsBalanced)
    (hdone : ∀ t ∈ b.tokens, t.kind ≠ .done) :
    afterStatement 0 b.tokens = [] ↔ b.chain = .nothing ∧ b.arm.IsPlain := by
  have harm : ∀ t ∈ b.arm.tokens, t.kind ≠ .done := fun t ht ↦ hdone t (by simp [tokens, ht])
  have hcondition : ∀ t ∈ b.arm.condition, t.kind ≠ .done := fun t ht ↦
    harm t (by simp [Arm.tokens, ht])
  have hafter (hplain : b.arm.IsPlain) : afterStatement 0 b.tokens = b.chain.tokens :=
    afterStatement_arm h.1 hplain harm _
  constructor
  · intro hnil
    rcases h.1.1.plain_or_ends_within hcondition with hplain | ⟨rest, hrest⟩
    · exact ⟨ElseChain.eq_nothing (hafter hplain ▸ hnil), hplain⟩
    · -- the search ends in the condition, in front of the parenthesis that closes it
      have hwithin : afterStatement 0 b.tokens = rest ++
          (⟨.symbol .closeParen, b.arm.closing⟩ :: (b.arm.block.tokens ++ b.chain.tokens)) := by
        rw [← hrest, tokens, Arm.tokens, List.cons_append, List.append_assoc]
        rfl
      simp [hwithin] at hnil
  · rintro ⟨hchain, hplain⟩
    rw [hafter hplain, hchain]
    rfl

/-- **What a branch that cannot be parsed costs.**  Let a statement be a branch with balanced braces,
whatever else stands in its conditions and blocks, and let it be impossible to parse, wherever its
error is.  If its conditions are plain, there is one error for it and one for each word `else`, and
then the statements and errors of what stands behind it.  Whether or not they are plain, the whole
costs one error exactly if there is no `else` and the first condition is plain. -/
theorem failed_branch_costs {b : BranchText} (hb : b.IsBalanced) {q : List Token} {o : Obstacle}
    (hdone : ∀ t ∈ b.tokens, t.kind ≠ .done)
    (hfail : outermost.statement (b.tokens ++ q) = .error o) :
    (b.IsPlain → parseTokens (b.tokens ++ q) = ⟨(parseTokens q).statements,
      o.toSyntaxError :: (b.chain.words.map misplacedElse ++ (parseTokens q).errors)⟩) ∧
    (atKeyword .elseWord q = false →
      (CostsOneError b.tokens q ↔ b.chain = .nothing ∧ b.arm.IsPlain)) := by
  constructor
  · intro hplain
    have harm : ∀ t ∈ b.arm.tokens, t.kind ≠ .done := fun t ht ↦ hdone t (by simp [tokens, ht])
    have hchain : ∀ t ∈ b.chain.tokens, t.kind ≠ .done := fun t ht ↦
      hdone t (by simp [tokens, ht])
    have hafter : afterStatement 0 (b.tokens ++ q) = b.chain.tokens ++ q := by
      rw [tokens, List.cons_append, List.append_assoc]
      exact afterStatement_arm hb.1 hplain.1 harm _
    rw [parseTokens_of_error rfl hfail, hafter, parseTokens_chain hb.2 hplain.2 hchain]
  · intro hq
    rw [costsOneError_iff hb.closed (List.cons_ne_nil _ _) hdone hfail hq,
      afterStatement_eq_nil_iff hb hdone]

end BranchText

/-- A condition, and a block with a call that is not closed. -/
def openCall : Arm :=
  ⟨⟨3, 4⟩, [⟨.name "x", ⟨4, 5⟩⟩], ⟨5, 6⟩,
    ⟨⟨7, 8⟩, [⟨.name "foo", ⟨9, 12⟩⟩, ⟨.symbol .openParen, ⟨12, 13⟩⟩,
      ⟨.symbol .semicolon, ⟨13, 14⟩⟩], ⟨15, 16⟩⟩⟩

/-- The first complaint about it. -/
def openCallObstacle : Obstacle := ⟨.symbol .closeParen, ⟨.symbol .semicolon, ⟨13, 14⟩⟩⟩

theorem isBalanced_openCall : openCall.IsBalanced :=
  ⟨.of_forall (by decide +kernel), .of_forall (by decide +kernel)⟩

theorem isPlain_openCall : openCall.IsPlain := by
  rw [Arm.IsPlain]
  decide +kernel

/-- The branch without `else`. -/
def loneBranch : BranchText := ⟨⟨0, 2⟩, openCall, .nothing⟩

/-- A body that starts with it. -/
def loneText : String := "if (x) { foo(; } return 1"

/-- Without `else`, it costs one error. -/
theorem loneBranch_costs : tokenize loneText = loneBranch.tokens ++ (tokenize loneText).drop 9 ∧
    loneBranch.IsBalanced ∧ loneBranch.IsPlain ∧ (∀ t ∈ loneBranch.tokens, t.kind ≠ .done) ∧
    outermost.statement (loneBranch.tokens ++ (tokenize loneText).drop 9) =
      .error openCallObstacle ∧
    atKeyword .elseWord ((tokenize loneText).drop 9) = false ∧
    CostsOneError loneBranch.tokens ((tokenize loneText).drop 9) ∧
    parseTokens (loneBranch.tokens ++ (tokenize loneText).drop 9) =
      ⟨(parseTokens ((tokenize loneText).drop 9)).statements,
        openCallObstacle.toSyntaxError :: (parseTokens ((tokenize loneText).drop 9)).errors⟩ := by
  have hbalanced : loneBranch.IsBalanced := ⟨isBalanced_openCall, trivial⟩
  have hplain : loneBranch.IsPlain := ⟨isPlain_openCall, trivial⟩
  have hdone : ∀ t ∈ loneBranch.tokens, t.kind ≠ .done := by decide +kernel
  have hfail : outermost.statement (loneBranch.tokens ++ (tokenize loneText).drop 9) =
    .error openCallObstacle := by rfl
  have hq : atKeyword .elseWord ((tokenize loneText).drop 9) = false := by decide +kernel
  have hcosts := BranchText.failed_branch_costs hbalanced hdone hfail
  exact ⟨by decide +kernel, hbalanced, hplain, hdone, hfail, hq, (hcosts.2 hq).2 ⟨rfl, hplain.1⟩,
    hcosts.1 hplain⟩

/-- The branch with an `else`, and nothing else wrong. -/
def elseBranch : BranchText :=
  ⟨⟨0, 2⟩, openCall, .block ⟨17, 21⟩ ⟨⟨22, 23⟩, [⟨.name "bar", ⟨24, 27⟩⟩,
    ⟨.symbol .openParen, ⟨27, 28⟩⟩, ⟨.symbol .closeParen, ⟨28, 29⟩⟩,
    ⟨.symbol .semicolon, ⟨29, 30⟩⟩], ⟨31, 32⟩⟩⟩

/-- A body that starts with it. -/
def elseText : String := "if (x) { foo(; } else { bar(); } return 1"

/-- The only error is in the first block, and yet it costs two. -/
theorem elseBranch_costs_more :
    tokenize elseText = elseBranch.tokens ++ (tokenize elseText).drop 16 ∧
    elseBranch.IsBalanced ∧
    outermost.statement (tokenize elseText) = .error openCallObstacle ∧
    openCallObstacle.found ∈ elseBranch.arm.block.body ∧
    (parse elseText).errors = [⟨"')' expected, found ';'", ⟨13, 14⟩⟩,
      ⟨"Invalid statement starting with 'else'", ⟨17, 21⟩⟩] ∧
    (parseTokens ((tokenize elseText).drop 16)).errors = [] ∧
    ¬ CostsOneError elseBranch.tokens ((tokenize elseText).drop 16) := by
  have htokens : tokenize elseText = elseBranch.tokens ++ (tokenize elseText).drop 16 := by
    decide +kernel
  have herrors : (parse elseText).errors = [⟨"')' expected, found ';'", ⟨13, 14⟩⟩,
      ⟨"Invalid statement starting with 'else'", ⟨17, 21⟩⟩] := by decide +kernel
  have hrest : (parseTokens ((tokenize elseText).drop 16)).errors = [] := by decide +kernel
  refine ⟨htokens, ⟨isBalanced_openCall, .of_forall (by decide +kernel)⟩, by rfl,
    by decide +kernel, herrors, hrest, ?_⟩
  rintro ⟨e, he⟩
  rw [← htokens] at he
  have hone := congrArg (fun body ↦ body.errors.length) he
  have htwo : (parseTokens (tokenize elseText)).errors.length = 2 :=
    congrArg List.length herrors
  simp only [htwo, hrest, List.length_cons, List.length_nil] at hone
  omega

end Dossier.Script
