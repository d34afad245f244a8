import Dossier.Proofs.Parse.WatchedStmt

/-!
# Parsing makes progress

A body is parsed to its end, and within it.

* What is parsed and what is left out after an error both take some tokens off the front, none of which
  is the end of the body (`Passes`).  So the end is always found, and there are no more statements and
  errors than tokens in front of it (`count_parseStatements`).
* No parser takes off a token that is not there, and each of their loops comes to an end.  This is what
  the parsers under watch say (`Settles`, `Returns`), at every depth and for every list of tokens.  They
  carry the depth along with the tokens, and each comes back to the one at which it has started.

`parse_progresses` puts the two together for the tokens of a body.
-/

set_option autoImplicit false

namespace Dossier.Script

open StmtLevel (ofRoom)

/-- Some tokens are passed over, at least one, and none of them is the end. -/
def Passes (ts rest : List Token) : Prop :=
  ∃ us, us ≠ [] ∧ (∀ t ∈ us, t.kind ≠ .done) ∧ ts = us ++ rest

/-- How many tokens there are beside the end. -/
def properCount (ts : List Token) : Nat := ts.countP fun t ↦ t.kind != .done

namespace Passes

variable {ts rest : List Token}

theorem count_lt (h : Passes ts rest) : properCount rest < properCount ts := by
  obtain ⟨us, hne, hus, rfl⟩ := h
  have hall : us.countP (fun t ↦ t.kind != .done) = us.length :=
    List.countP_eq_length.2 fun t ht ↦ bne_iff_ne.2 (hus t ht)
  have hpos := List.length_pos_of_ne_nil hne
  show properCount rest < List.countP _ (us ++ rest)
  rw [List.countP_append, hall]
  show properCount rest < us.length + properCount rest
  omega

theorem length_lt (h : Passes ts rest) : rest.length < ts.length := by
  obtain ⟨us, hne, -, rfl⟩ := h
  have hpos := List.length_pos_of_ne_nil hne
  rw [List.length_append]
  omega

/-- The end is not passed over. -/
theorem exists_done (h : Passes ts rest) (hend : ∃ t ∈ ts, t.kind = .done) :
    ∃ t ∈ rest, t.kind = .done := by
  obtain ⟨us, -, hus, rfl⟩ := h
  obtain ⟨t, ht, hdone⟩ := hend
  rcases List.mem_append.1 ht with ht | ht
  · exact absurd hdone (hus t ht)
  · exact ⟨t, ht, hdone⟩

end Passes

theorem passes_statement {room : Nat} {ts rest : List Token} {s : Stmt}
    (h : (ofRoom room).statement ts = .ok (s, rest)) : Passes ts rest := by
  obtain ⟨us, rfl, hus⟩ := (StmtLevel.sound_ofRoom room).statement _ _ _ h
  have hne := ne_nil_of_proper (TokenKind.isProper_of_opensStmt hus.opens)
  refine ⟨us, hne, fun t ht hdone ↦ ?_, rfl⟩
  have hproper := hus.proper t ht
  rw [hdone] at hproper
  cases hproper

/-- The search of the end of a statement stops at the end of the body. -/
theorem exists_append_afterStatement (depth : Nat) (ts : List Token) :
    ∃ us, (∀ t ∈ us, t.kind ≠ .done) ∧ ts = us ++ afterStatement depth ts := by
  fun_induction afterStatement depth ts with
  | case1 | case7 => exact ⟨[], List.forall_mem_nil _, rfl⟩
  | case4 _ t ts hkind | case5 t ts hkind =>
    exact ⟨[t], by simp [hkind], rfl⟩
  | case2 _ t ts hkind ih | case3 _ t ts hkind _ ih | case6 _ t ts hkind _ ih =>
    obtain ⟨us, hus, hts⟩ := ih
    exact ⟨t :: us, List.forall_mem_cons.2 ⟨by simp [hkind], hus⟩, congrArg (t :: ·) hts⟩
  | case8 _ t ts _ _ _ hdone ih =>
    obtain ⟨us, hus, hts⟩ := ih
    exact ⟨t :: us, List.forall_mem_cons.2 ⟨hdone, hus⟩, congrArg (t :: ·) hts⟩

theorem passes_afterStatement (depth : Nat) {ts : List Token} (h : atEnd ts = false) :
    Passes ts (afterStatement depth ts) := by
  obtain ⟨us, hus, hts⟩ := exists_append_afterStatement depth ts
  refine ⟨us, ?_, hus, hts⟩
  rintro rfl
  have hlength := length_afterStatement depth h
  rw [List.nil_append] at hts
  rw [← hts] at hlength
  exact Nat.lt_irrefl _ hlength

/-- Each statement and each error has a token of its own. -/
theorem count_parseStatements (fuel : Nat) (ts : List Token) :
    (parseStatements fuel ts).statements.length + (parseStatements fuel ts).errors.length ≤
      properCount ts := by
  induction fuel generalizing ts with
  | zero => exact Nat.zero_le _
  | succ fuel ih =>
    rw [parseStatements]
    cases hend : atEnd ts with
    | true => exact Nat.zero_le _
    | false =>
      simp only [Bool.false_eq_true, if_false]
      rw [StmtLevel.outermost]
      cases hs : (ofRoom maxNesting).statement ts with
      | ok r =>
        have hrest := ih r.2
        have hlt := (passes_statement hs).count_lt
        simp only [List.length_cons]
        omega
      | error o =>
        have hrest := ih (afterStatement 0 ts)
        have hlt := (passes_afterStatement 0 hend).count_lt
        simp only [List.length_cons]
        omega

/-- What holds of the parsing of a body. -/
structure Progresses (source : String) : Prop where
  /-- The tokens of the body have one end, which is the last of them. -/
  ends : ∃ front span, tokenize source = front ++ [⟨.done, span⟩] ∧ ∀ t ∈ front, t.kind ≠ .done
  /-- A statement, at any depth, takes a token off, and leaves the end. -/
  statement : ∀ room ts s rest, ts <:+ tokenize source →
    (ofRoom room).statement ts = .ok (s, rest) → Passes ts rest ∧ ∃ t ∈ rest, t.kind = .done
  /-- What is left after an error is shorter, and still has the end. -/
  recovery : ∀ ts, ts <:+ tokenize source → atEnd ts = false →
    Passes ts (afterStatement 0 ts) ∧ ∃ t ∈ afterStatement 0 ts, t.kind = .done
  /-- The loops over operators, calls and members end, and stay within the tokens. -/
  expressions : ∀ room depth, room + depth = maxNesting → Watched.ExprsAlike room depth
  /-- So does the loop over the arguments of a call. -/
  arguments : ∀ room depth, room + depth = maxNesting → ∀ ts,
    Returns depth (fun n ↦ Watched.arguments (Watched.expression n) n ⟨ts, depth⟩)
      (ExprLevel.arguments (ExprLevel.ofRoom room).expression ts)
  /-- So does the loop over the statements of a block. -/
  statements : ∀ room depth, room + depth = maxNesting → Watched.StmtsAlike room depth
  /-- So does the loop over the statements of the body, which goes on after errors. -/
  body : Settles (fun n ↦ Watched.body n ⟨tokenize source, 0⟩) (.ok (parse source))
  /-- There are no more statements and errors than tokens in front of the end. -/
  count : (parse source).statements.length + (parse source).errors.length ≤
    properCount (tokenize source)

/-- What is left of the tokens of a body, if anything is, has the end. -/
theorem exists_done_of_suffix {source : String} {ts : List Token} (h : ts <:+ tokenize source)
    (hne : ts ≠ []) : ∃ t ∈ ts, t.kind = .done := by
  obtain ⟨front, span, htokens, -⟩ := tokenize_eq source
  have hlast := List.getLast_mem hne
  rw [h.getLast hne] at hlast
  exact ⟨_, hlast, by simp [htokens]⟩

/-- **Parsing always makes progress and stays within the tokens.**  Each statement takes off at least
one token and never the end, and so does what is left out after an error.  At every depth the parsers
that are watched come to the outcomes of those that are not: none takes off a token that is not there,
all loops end, and the depth that is counted along with the tokens is set back.  Statements and errors together are no more than the tokens in front of the end. -/
theorem parse_progresses (source : String) : Progresses source where
  ends := tokenize_eq source
  statement room ts s rest hts h := by
    have hpasses := passes_statement h
    have hne : ts ≠ [] := List.ne_nil_of_length_pos (Nat.zero_lt_of_lt hpasses.length_lt)
    exact ⟨hpasses, hpasses.exists_done (exists_done_of_suffix hts hne)⟩
  recovery ts hts hend := by
    have hpasses := passes_afterStatement 0 hend
    exact ⟨hpasses, hpasses.exists_done (exists_done_of_suffix hts (ne_nil_of_atEnd hend))⟩
  expressions room depth hdepth := Watched.exprsAlike_ofRoom hdepth
  arguments room depth hdepth := Watched.returns_arguments
    (Watched.exprsAlike_ofRoom hdepth).expression (Watched.length_le_of_expression room)
  statements room depth hdepth := Watched.stmtsAlike_ofRoom hdepth
  body := Watched.settles_body (Nat.le_refl _)
  count := count_parseStatements _ _

/-- Two errors and a statement, each with a token of its own. -/
example : (parse "; ; x").statements.length = 1 ∧ (parse "; ; x").errors.length = 2 ∧
    properCount (tokenize "; ; x") = 3 := by
  decide +kernel

end Dossier.Script
