import Dossier.Proofs.Parse.Accepts
import Dossier.Proofs.Parse.StmtLocal

/-!
# Statements are parsed on their own

A body that is put together from two lists of tokens is parsed like the first list and then like the
second one, with the statements and the errors of both.

* What is needed of the first list is that it is closed (`parseStatements_append`).  Its errors do
  not matter, because the parser of a statement and the search of its end both stay within it.
* `StandsAlone` lists three ways to be closed: tokens without errors, tokens without braces, and some
  tokens with one group of braces behind them.
* `parse_append` is the result for bodies.
-/

set_option autoImplicit false

namespace Dossier.Script

open Text (Span)
open StmtLevel

/-- The statements and errors of one body, and then those of another one. -/
def ParsedBody.append (a b : ParsedBody) : ParsedBody :=
  ⟨a.statements ++ b.statements, a.errors ++ b.errors⟩

/-! ## Reading on -/

theorem ne_nil_of_atEnd {ts : List Token} (h : atEnd ts = false) : ts ≠ [] := by
  rintro rfl
  cases h

/-- Among tokens of which none is the end, it is not at the front. -/
theorem atEnd_eq_false {ts : List Token} (hne : ts ≠ []) (hdone : ∀ t ∈ ts, t.kind ≠ .done) :
    atEnd ts = false := by
  obtain ⟨t, us, rfl⟩ := List.exists_cons_of_ne_nil hne
  exact beq_eq_false_iff_ne.2 (hdone t (List.mem_cons_self ..))

/-- The end of a statement stands behind its first token. -/
theorem length_afterStatement (depth : Nat) {ts : List Token} (h : atEnd ts = false) :
    (afterStatement depth ts).length < ts.length := by
  obtain ⟨t, us, rfl⟩ := List.exists_cons_of_ne_nil (ne_nil_of_atEnd h)
  have ht : t.kind ≠ .done := beq_eq_false_iff_ne.1 h
  exact Nat.lt_succ_of_le (afterStatement_suffix_tail ht us).length_le

/-- **There are no more statements and errors than tokens**, so that more fuel changes nothing. -/
theorem parseStatements_fuel {fuel fuel' : Nat} {ts : List Token} (h : ts.length ≤ fuel)
    (h' : ts.length ≤ fuel') : parseStatements fuel ts = parseStatements fuel' ts := by
  induction fuel generalizing fuel' ts with
  | zero =>
    obtain rfl := List.length_eq_zero_iff.1 (Nat.le_zero.1 h)
    cases fuel' <;> rfl
  | succ fuel ih =>
    cases fuel' with
    | zero =>
      obtain rfl := List.length_eq_zero_iff.1 (Nat.le_zero.1 h')
      rfl
    | succ fuel' =>
      rw [parseStatements, parseStatements]
      cases hend : atEnd ts with
      | true => rfl
      | false =>
        have hafter := length_afterStatement 0 hend
        cases hs : outermost.statement ts with
        | error o =>
          dsimp only
          rw [@ih fuel' (afterStatement 0 ts) (by omega) (by omega)]
        | ok x =>
          obtain ⟨s, rest⟩ := x
          have hrest := consumes_statement maxNesting ts s rest hs
          dsimp only
          rw [@ih fuel' rest (by omega) (by omega)]

/-- **Closed tokens are parsed on their own**, whatever stands behind them. -/
theorem parseStatements_append {r : List Token} (hr : atKeyword .elseWord r = false)
    {fuel fuel' : Nat} {ts : List Token} (hts : Closed 0 ts) (hdone : ∀ t ∈ ts, t.kind ≠ .done)
    (hfuel : ts.length ≤ fuel) (hfuel' : (ts ++ r).length ≤ fuel') :
    parseStatements fuel' (ts ++ r) = (parseStatements fuel ts).append (parseTokens r) := by
  induction fuel generalizing fuel' ts with
  | zero =>
    obtain rfl := List.length_eq_zero_iff.1 (Nat.le_zero.1 hfuel)
    exact parseStatements_fuel hfuel' (Nat.le_refl _)
  | succ fuel ih =>
    rcases eq_or_ne ts [] with rfl | hne
    · exact parseStatements_fuel hfuel' (Nat.le_refl _)
    have hend := atEnd_eq_false hne hdone
    have hlength := List.length_append ▸ hfuel'
    cases fuel' with
    | zero => exact absurd (List.length_eq_zero_iff.1 (Nat.le_zero.1 hfuel')) (by simp [hne])
    | succ fuel' =>
      rw [parseStatements, parseStatements, atEnd_append hne, hend]
      have hstatement := (local_ofRoom hr maxNesting).statement 0 ts ⟨hts, hne⟩
      change Extends r (Closed 0) (outermost.statement ts) (outermost.statement (ts ++ r))
        at hstatement
      cases hs : outermost.statement ts with
      | error o =>
        rw [hs] at hstatement
        obtain ⟨hafter, heq⟩ := closed_afterStatement hts hne hdone r
        have hshorter := length_afterStatement 0 hend
        have hmore := @ih fuel' _ hafter
          (fun t ht ↦ hdone t ((afterStatement_suffix 0 ts).subset ht)) (by omega)
          (by rw [List.length_append]; omega)
        generalize outermost.statement (ts ++ r) = y at hstatement ⊢
        cases hstatement
        dsimp only
        rw [heq, hmore]
        rfl
      | ok x =>
        obtain ⟨s, rest⟩ := x
        rw [hs] at hstatement
        obtain ⟨us, hus, -⟩ := (sound_ofRoom maxNesting).statement _ _ _ hs
        have hshorter := consumes_statement maxNesting ts s rest hs
        generalize outermost.statement (ts ++ r) = y at hstatement ⊢
        cases hstatement with
        | ok _ hrest =>
          have hmore := @ih fuel' _ hrest
            (fun t ht ↦ hdone t (hus ▸ List.mem_append_right us ht)) (by omega)
            (by rw [List.length_append]; omega)
          dsimp only
          rw [hmore]
          rfl

theorem parseTokens_append {ts r : List Token} (hts : Closed 0 ts) (hdone : ∀ t ∈ ts, t.kind ≠ .done)
    (hr : atKeyword .elseWord r = false) :
    parseTokens (ts ++ r) = (parseTokens ts).append (parseTokens r) :=
  parseStatements_append hr hts hdone (Nat.le_refl _) (Nat.le_refl _)

/-- Where a body ends behind closed tokens makes no difference to them. -/
theorem parseTokens_done {ts : List Token} {e : Token} (hts : Closed 0 ts)
    (hdone : ∀ t ∈ ts, t.kind ≠ .done) (he : e.kind = .done) :
    parseTokens (ts ++ [e]) = parseTokens ts := by
  obtain ⟨kind, span⟩ := e
  subst he
  rw [parseTokens_append hts hdone rfl]
  simp [ParsedBody.append, parseTokens, parseStatements, atEnd, current]

/-! ## Tokens that stand alone -/

/-- Three ways in which tokens are parsed on their own; `e` is the end that they get then. -/
inductive StandsAlone (e : Token) : List Token → Prop
  /-- They have no errors, and end where a statement can end. -/
  | accepted {ts : List Token} : (parseTokens (ts ++ [e])).errors = [] → EndsStmt ts →
    StandsAlone e ts
  /-- They have no braces, and end where a statement can end. -/
  | simple {ts : List Token} : (∀ t ∈ ts, t.isBrace = false) → EndsStmt ts → StandsAlone e ts
  /-- They are some tokens without braces and semicolons, and one group of braces. -/
  | group {ts us : List Token} (opening close : Span) : (∀ t ∈ ts, t.isFence = false) → Balanced us →
    StandsAlone e
      (ts ++ ⟨.symbol .openBrace, opening⟩ :: (us ++ [⟨.symbol .closeBrace, close⟩]))

/-- Tokens without errors are balanced, and so they are closed. -/
theorem closed_of_errors {ts : List Token} {e : Token} (he : e.kind = .done)
    (hdone : ∀ t ∈ ts, t.kind ≠ .done) (herrors : (parseTokens (ts ++ [e])).errors = [])
    (hends : EndsStmt ts) : Closed 0 ts := by
  obtain ⟨kind, span⟩ := e
  subst he
  obtain ⟨rest, hend, hstatements⟩ := statements_eq_of_errors (Nat.le_refl _) herrors
  obtain ⟨us, hus, hderives⟩ :=
    finds_statements (sound_ofRoom maxNesting).statement _ _ _ _ hstatements
  obtain rfl := eq_of_append_done hdone hderives.proper hend hus
  have hclosed := hderives.balanced.closed .nil (by rwa [List.append_nil])
  rwa [List.append_nil] at hclosed

theorem Token.isBrace_of_isFence {t : Token} (h : t.isFence = false) : t.isBrace = false := by
  rw [isFence] at h
  rw [isBrace]
  split <;> simp_all

/-- **Tokens that stand alone are closed.** -/
theorem StandsAlone.closed {ts : List Token} {e : Token} (h : StandsAlone e ts) (he : e.kind = .done)
    (hdone : ∀ t ∈ ts, t.kind ≠ .done) : Closed 0 ts := by
  cases h with
  | accepted herrors hends => exact closed_of_errors he hdone herrors hends
  | simple hbraces hends =>
    have hclosed := (Balanced.of_forall hbraces).closed .nil (by rwa [List.append_nil])
    rwa [List.append_nil] at hclosed
  | group opening close hrun hinner =>
    have hgroup := Balanced.group opening close hinner .nil
    have hrun := Balanced.of_forall fun t ht ↦ Token.isBrace_of_isFence (hrun t ht)
    have hclosed := (hrun.append hgroup).closed .nil ?_
    · rwa [List.append_nil] at hclosed
    · rw [List.append_nil, ← List.cons_append, ← List.append_assoc]
      exact .concat _ rfl

/-! ## Bodies -/

/-- A body whose tokens are cut has its end behind the cut. -/
theorem ne_done_of_tokenize {source : String} {p q : List Token} (h : tokenize source = p ++ q)
    (hq : q ≠ []) : ∀ t ∈ p, t.kind ≠ .done := by
  obtain ⟨front, span, htokens, hfront⟩ := tokenize_eq source
  rw [htokens, ← List.dropLast_append_getLast hq, ← List.append_assoc] at h
  obtain ⟨rfl, -⟩ := List.append_inj' h rfl
  exact fun t ht ↦ hfront t (List.mem_append_left _ ht)

/-- **Statements are parsed on their own.**  Where the tokens of a body are cut behind some that stand
alone, and not in front of the word `else`, the statements and errors of the body are those of the
first part, parsed with an end of its own, and then those of the second part. -/
theorem parse_append {source : String} {p q : List Token} {e : Token}
    (hsource : tokenize source = p ++ q) (hq : q ≠ []) (helse : atKeyword .elseWord q = false)
    (he : e.kind = .done) (hp : StandsAlone e p) :
    parse source = (parseTokens (p ++ [e])).append (parseTokens q) := by
  have hdone := ne_done_of_tokenize hsource hq
  have hclosed := hp.closed he hdone
  rw [parseTokens_done hclosed hdone he, ← parseTokens_append hclosed hdone helse, ← hsource]
  rfl

/-- A condition without its closing parenthesis, an assignment without its value, and two statements
behind them. -/
def brokenText : String := "if (x { a = ; } b = 2; return b"

/-- The end of a body that is nothing else. -/
def bareEnd : Token := ⟨.done, ⟨0, 0⟩⟩

/-- The condition has its error, and the two statements are parsed as on their own. -/
theorem brokenText_append :
    StandsAlone bareEnd ((tokenize brokenText).take 8) ∧
      parse brokenText = (parseTokens ((tokenize brokenText).take 8 ++ [bareEnd])).append
        (parseTokens ((tokenize brokenText).drop 8)) ∧
      (parseTokens ((tokenize brokenText).take 8 ++ [bareEnd])).errors.length = 1 ∧
      (parseTokens ((tokenize brokenText).drop 8)).statements.length = 2 := by
  have hgroup : (tokenize brokenText).take 8 = (tokenize brokenText).take 3 ++
      ⟨.symbol .openBrace, ⟨6, 7⟩⟩ :: (((tokenize brokenText).drop 4).take 3 ++
        [⟨.symbol .closeBrace, ⟨14, 15⟩⟩]) := by decide +kernel
  have hrun : ∀ t ∈ (tokenize brokenText).take 3, t.isFence = false := by decide +kernel
  have hinner : ∀ t ∈ ((tokenize brokenText).drop 4).take 3, t.isBrace = false := by decide +kernel
  have halone : StandsAlone bareEnd ((tokenize brokenText).take 8) := by
    rw [hgroup]
    exact .group _ _ hrun (.of_forall hinner)
  refine ⟨halone, ?_, by decide +kernel, by decide +kernel⟩
  exact parse_append (List.take_append_drop 8 _).symm (by decide +kernel) (by decide +kernel) rfl
    halone

end Dossier.Script
