import Dossier.Proofs.Parse.StmtComplete
import Dossier.Script.Parse.Body

/-!
# Parsing accepts the grammar

A body without errors is one whose tokens are statements, as long as no limit is met; and the
statements that are read are the only ones that its tokens can be read as.  `parse_accepts` states this,
and that no invalid token goes without an error.

* `tokenize_eq` says that the end stands behind the tokens of a body, and only there.
* A body is read like the statements of a block, except that an error does not stop the reading:
  `parseStatements_eq`, `mem_errors` and `statements_eq_of_errors` compare the two.
* `SyntaxError.AtLimit` tells the errors about limits from all others (`Obstacle.atLimit_iff`).
-/

set_option autoImplicit false

namespace Dossier.Script

open Text (Span)

/-! ## The end of a body -/

/-- No piece of a text is its end. -/
theorem kind_piece_ne_done (c : Char) (cs : List Char) : (piece c cs).kind ≠ some .done := by
  have hcomment : (commentPiece cs).kind ≠ some .done := by
    rw [commentPiece]
    split <;> exact nofun
  have hstring : (stringPiece cs).kind ≠ some .done := by
    rw [stringPiece]
    dsimp only
    split <;> exact nofun
  have hnumber : (numberPiece c cs).kind ≠ some .done := by
    rw [numberPiece]
    dsimp only
    split
    · split <;> exact nofun
    · exact nofun
  have hname : (namePiece c cs).kind ≠ some .done := by
    rw [namePiece]
    dsimp only
    split <;> exact nofun
  have hsymbol : (symbolPiece c cs).kind ≠ some .done := by
    rw [symbolPiece]
    split
    · exact nofun
    · split <;> exact nofun
  rw [piece]
  split_ifs <;> first | assumption | exact nofun

theorem tokensFrom_eq (skip offset : Nat) (cs : List Char) : ∃ front span,
    tokensFrom skip offset cs = front ++ [⟨.done, span⟩] ∧ ∀ t ∈ front, t.kind ≠ .done := by
  induction cs generalizing skip offset with
  | nil => exact ⟨[], _, by cases skip <;> rfl, by simp⟩
  | cons c cs ih =>
    cases skip with
    | succ skip => exact ih skip _
    | zero =>
      obtain ⟨front, span, heq, hfront⟩ := ih (piece c cs).extra (offset + c.utf8Size)
      rw [tokensFrom]
      cases hkind : (piece c cs).kind with
      | none => exact ⟨front, span, heq, hfront⟩
      | some kind =>
        dsimp only
        rw [heq]
        refine ⟨_ :: front, span, rfl, List.forall_mem_cons.2 ⟨?_, hfront⟩⟩
        rintro rfl
        exact kind_piece_ne_done c cs hkind

/-- **The end stands behind the tokens of a body, and only there.** -/
theorem tokenize_eq (source : String) : ∃ front span,
    tokenize source = front ++ [⟨.done, span⟩] ∧ ∀ t ∈ front, t.kind ≠ .done :=
  tokensFrom_eq 0 0 source.toList

/-- Where tokens that are no end meet the end, the list is split in one way only. -/
theorem eq_of_append_done {front us rest : List Token} {span : Span}
    (hfront : ∀ t ∈ front, t.kind ≠ .done) (hus : AllProper us) (hrest : atEnd rest = true)
    (h : front ++ [⟨.done, span⟩] = us ++ rest) : front = us := by
  induction front generalizing us with
  | nil =>
    cases us with
    | nil => rfl
    | cons u us =>
      obtain ⟨rfl, -⟩ := List.cons.inj h
      exact absurd (hus _ (List.mem_cons_self ..)) Bool.false_ne_true
  | cons t front ih =>
    cases us with
    | nil =>
      rw [List.nil_append] at h
      subst h
      exact absurd (beq_iff_eq.1 hrest) (hfront t (List.mem_cons_self ..))
    | cons u us =>
      obtain ⟨rfl, htail⟩ := List.cons.inj h
      have ht := List.forall_mem_cons.1 hfront
      rw [ih ht.2 (allProper_cons.1 hus).2 htail]

/-! ## Reading on after errors -/

open StmtLevel

/-- Where the statements of a block end with the body, the body is these statements. -/
theorem parseStatements_eq {fuel : Nat} {ts rest : List Token} {body : List Stmt}
    (h : StmtLevel.statements outermost.statement fuel ts = .ok (body, rest))
    (hend : atEnd rest = true) : parseStatements fuel ts = ⟨body, []⟩ := by
  induction fuel generalizing ts body with
  | zero =>
    cases h
    rfl
  | succ fuel ih =>
    rw [StmtLevel.statements] at h
    rw [parseStatements]
    split at h
    · cases h
      rw [if_pos hend]
    · rename_i hstop
      obtain ⟨⟨s, us⟩, hs, h⟩ := bind_eq_ok_iff.1 h
      obtain ⟨⟨more, vs⟩, hmore, h⟩ := bind_eq_ok_iff.1 h
      cases h
      rw [Bool.or_eq_true, not_or] at hstop
      rw [if_neg hstop.2, hs]
      dsimp only
      rw [ih hmore]

/-- An obstacle in the statements of a block is an error of the body. -/
theorem mem_errors {fuel : Nat} {ts : List Token} {o : Obstacle}
    (h : StmtLevel.statements outermost.statement fuel ts = .error o) :
    o.toSyntaxError ∈ (parseStatements fuel ts).errors := by
  induction fuel generalizing ts with
  | zero => cases h
  | succ fuel ih =>
    rw [StmtLevel.statements] at h
    rw [parseStatements]
    split at h
    · cases h
    · rename_i hstop
      rw [Bool.or_eq_true, not_or] at hstop
      rw [if_neg hstop.2]
      cases hs : outermost.statement ts with
      | error o' =>
        rw [hs] at h
        cases h
        exact List.mem_cons_self ..
      | ok x =>
        rw [hs] at h
        cases hmore : StmtLevel.statements outermost.statement fuel x.2 with
        | error o' =>
          obtain rfl : o' = o := by
            simpa [Bind.bind, Except.bind, hmore] using h
          exact ih hmore
        | ok y => simp [Bind.bind, Except.bind, hmore] at h

/-- Without errors, the body is the statements of a block that ends with it. -/
theorem statements_eq_of_errors {fuel : Nat} {ts : List Token} (hfuel : ts.length ≤ fuel)
    (h : (parseStatements fuel ts).errors = []) : ∃ rest, atEnd rest = true ∧
      StmtLevel.statements outermost.statement fuel ts =
        .ok ((parseStatements fuel ts).statements, rest) := by
  induction fuel generalizing ts with
  | zero =>
    obtain rfl := List.length_eq_zero_iff.1 (Nat.le_zero.1 hfuel)
    exact ⟨[], rfl, rfl⟩
  | succ fuel ih =>
    cases hend : atEnd ts with
    | true =>
      refine ⟨ts, hend, ?_⟩
      rw [statements_of_atEnd hend, parseStatements, if_pos hend]
    | false =>
      rw [parseStatements, hend, if_neg Bool.false_ne_true] at h ⊢
      cases hs : outermost.statement ts with
      | error o =>
        rw [hs] at h
        cases h
      | ok x =>
        obtain ⟨s, us⟩ := x
        rw [hs] at h
        have hbrace : atSymbol .closeBrace ts = false := by
          rw [Bool.eq_false_iff]
          intro hbrace
          rw [outermost, statement_ofRoom, statementWith, beq_iff_eq.1 hbrace] at hs
          cases hs
        obtain ⟨vs, rfl, hderives⟩ := (sound_ofRoom maxNesting).statement _ _ _ hs
        have hlength : us.length ≤ fuel := by
          have hpos := List.length_pos_of_ne_nil
            (ne_nil_of_proper (TokenKind.isProper_of_opensStmt hderives.opens))
          rw [List.length_append] at hfuel
          omega
        obtain ⟨rest, hrest, hmore⟩ := ih hlength h
        refine ⟨rest, hrest, ?_⟩
        rw [StmtLevel.statements, hbrace, hend, hs]
        exact bind_eq_ok_iff.2 ⟨_, rfl, bind_eq_ok_iff.2 ⟨_, hmore, rfl⟩⟩

/-! ## Errors about limits -/

/-- The error is about a limit: a number that is too large, or nesting that is too deep. -/
def SyntaxError.AtLimit (e : SyntaxError) : Prop :=
  e.message = "Integral constant is too large" ∨
    e.message = "An expression is too long or complex to compile"

/-- **An error is about a limit exactly if the obstacle is final**, and its token is one. -/
theorem Obstacle.atLimit_iff (o : Obstacle) :
    o.toSyntaxError.AtLimit ↔ o.isFinal ∧ ∀ text, o.found.kind ≠ .invalid text := by
  -- the other messages start with other letters
  have hstart {e : SyntaxError} (h : e.message.toList.take 3 ≠ ['I', 'n', 't'])
      (h' : e.message.toList.take 3 ≠ ['A', 'n', ' ']) : ¬ e.AtLimit := by
    rintro (heq | heq)
    · exact h (by rw [heq]; rfl)
    · exact h' (by rw [heq]; rfl)
  obtain ⟨complaint, t⟩ := o
  cases hkind : t.kind with
  | invalid text =>
    have hmessage : message ⟨complaint, t⟩ =
        "Unexpected character or unterminated literal " ++ quoted text := by
      rw [message, hkind]
    refine iff_of_false (hstart ?_ ?_) fun h ↦ h.2 text rfl
    · simp [toSyntaxError, hmessage]
    · simp [toSyntaxError, hmessage]
  | _ =>
    cases complaint with
    | numberTooLarge | tooComplex =>
      simp [toSyntaxError, hkind, SyntaxError.AtLimit, message, isFinal]
    | _ =>
      refine iff_of_false (hstart ?_ ?_) fun h ↦ Bool.false_ne_true h.1
      · simp [toSyntaxError, message, hkind, quoted]
      · simp [toSyntaxError, message, hkind, quoted]

/-! ## The grammar -/

/-- Bodies without errors are read as the grammar says. -/
theorem bodyDerives_of_errors {source : String} (h : (parse source).errors = []) :
    BodyDerives (tokenize source) (parse source).statements := by
  obtain ⟨front, span, htokens, hfront⟩ := tokenize_eq source
  obtain ⟨rest, hend, hstatements⟩ := statements_eq_of_errors (Nat.le_refl _) h
  obtain ⟨us, hus, hderives⟩ :=
    finds_statements (sound_ofRoom maxNesting).statement _ _ _ _ hstatements
  rw [hend] at hderives
  rw [htokens] at hus
  obtain rfl := eq_of_append_done hfront hderives.proper hend hus
  exact ⟨front, span, htokens, hderives⟩

/-- What the grammar says of a body is read, unless a limit is met. -/
theorem parse_eq_of_bodyDerives {source : String} {body : List Stmt}
    (h : BodyDerives (tokenize source) body)
    (hlimit : ∀ e ∈ (parse source).errors, ¬ e.AtLimit) : parse source = ⟨body, []⟩ := by
  obtain ⟨front, span, htokens, hderives⟩ := h
  have hlength : front.length ≤ (tokenize source).length := by
    rw [htokens, List.length_append]
    exact Nat.le_add_right _ _
  have hfound := hderives.found maxNesting (tokenize source).length [⟨.done, span⟩] hlength
    ⟨rfl, fun _ ↦ ⟨span, [], rfl⟩⟩ rfl
  rw [← htokens] at hfound
  rcases hfound with hok | ⟨o, herror, hfinal, hproper⟩
  · exact parseStatements_eq hok rfl
  · refine absurd (o.atLimit_iff.2 ⟨hfinal, fun text hkind ↦ ?_⟩) (hlimit _ (mem_errors herror))
    rw [hkind] at hproper
    cases hproper

/-- An invalid token is no part of a body without errors. -/
theorem errors_ne_nil_of_invalid {source : String} {t : Token} {text : String}
    (ht : t ∈ tokenize source) (hkind : t.kind = .invalid text) : (parse source).errors ≠ [] := by
  intro h
  obtain ⟨front, span, htokens, hderives⟩ := bodyDerives_of_errors h
  rw [htokens, List.mem_append, List.mem_singleton] at ht
  rcases ht with ht | rfl
  · have hproper := hderives.proper t ht
    rw [hkind] at hproper
    cases hproper
  · cases hkind

/-- **Parsing accepts exactly the grammar of statements.**  Where no limit is met, a body has no error
exactly if its tokens, up to the end, can be read as statements, and then these are the ones that are
read.  A body with an invalid token always has an error. -/
theorem parse_accepts (source : String) :
    ((∀ e ∈ (parse source).errors, ¬ e.AtLimit) →
      ((parse source).errors = [] ↔ ∃ body, BodyDerives (tokenize source) body) ∧
      ((parse source).errors = [] → ∀ body,
        BodyDerives (tokenize source) body ↔ body = (parse source).statements)) ∧
    ((∃ t ∈ tokenize source, ∃ text, t.kind = .invalid text) → (parse source).errors ≠ []) := by
  refine ⟨fun hlimit ↦ ⟨⟨?_, ?_⟩, fun herrors body ↦ ⟨?_, ?_⟩⟩, ?_⟩
  · exact fun herrors ↦ ⟨_, bodyDerives_of_errors herrors⟩
  · rintro ⟨body, hbody⟩
    rw [parse_eq_of_bodyDerives hbody hlimit]
  · intro hbody
    rw [parse_eq_of_bodyDerives hbody hlimit]
  · rintro rfl
    exact bodyDerives_of_errors herrors
  · rintro ⟨t, ht, text, hkind⟩
    exact errors_ne_nil_of_invalid ht hkind

/-- A body with a declaration, a branch, calls, signs, groups and no semicolon at its end. -/
def branchText : String :=
  "A.B c = f(1, -x) + 2 * (y - 3); if (c == 0) { return c; } else { c += 1; } return c"

/-- The body can be read as statements, and one with a stray character has an error. -/
theorem branchText_accepted :
    (parse branchText).errors = [] ∧ (parse branchText).statements.length = 3 ∧
      BodyDerives (tokenize branchText) (parse branchText).statements ∧
      (parse "c = @;").errors ≠ [] := by
  have herrors : (parse branchText).errors = [] := by decide +kernel
  have hlength : (parse branchText).statements.length = 3 := by decide +kernel
  have hlimit : ∀ e ∈ (parse branchText).errors, ¬ e.AtLimit := by
    rw [herrors]
    exact nofun
  have haccepts := (parse_accepts branchText).1 hlimit
  have hinvalid : ∃ t ∈ tokenize "c = @;", ∃ text, t.kind = .invalid text :=
    ⟨⟨.invalid "@", ⟨4, 5⟩⟩, by decide +kernel, "@", rfl⟩
  exact ⟨herrors, hlength, (haccepts.2 herrors _).2 rfl, (parse_accepts "c = @;").2 hinvalid⟩

end Dossier.Script
