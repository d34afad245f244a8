import Dossier.Proofs.Parse.ExprLocal
import Dossier.Proofs.Parse.StmtGrammar
import Dossier.Script.Parse.Body

/-!
# Braces

The end of a statement that cannot be parsed is found by counting braces, and so is how far the parser
of a statement can reach: where all braces are closed, neither goes beyond the tokens.

* `Balanced` says that the braces of some tokens belong together.  Those of a phrase do
  (`StmtPhrase.Derives.balanced`).
* `Closed depth ts` says what follows for the tokens behind `depth` open braces: they close these and
  all that they open themselves, and end where a statement can end (`Balanced.closed`).
* `closed_afterStatement` is the result for the search of the end of a statement: it is found within
  closed tokens.
-/

set_option autoImplicit false

namespace Dossier.Script

open Text (Span)

/-! ## Balanced tokens -/

namespace Token

/-- Is this a brace? -/
def isBrace (t : Token) : Bool :=
  match t.kind with
  | .symbol .openBrace | .symbol .closeBrace => true
  | _ => false

/-- Can a statement end with this token? -/
def endsStmt (t : Token) : Bool :=
  match t.kind with
  | .symbol .semicolon | .symbol .closeBrace => true
  | _ => false

end Token

/-- The braces of the tokens belong together. -/
inductive Balanced : List Token → Prop
  | nil : Balanced []
  | cons {t : Token} {ts : List Token} : t.isBrace = false → Balanced ts → Balanced (t :: ts)
  | group {ts us : List Token} (opening close : Span) : Balanced ts → Balanced us →
    Balanced (⟨.symbol .openBrace, opening⟩ :: (ts ++ ⟨.symbol .closeBrace, close⟩ :: us))

namespace Balanced

variable {ts us : List Token}

theorem append (hts : Balanced ts) (hus : Balanced us) : Balanced (ts ++ us) := by
  induction hts with
  | nil => exact hus
  | cons ht _ ih => exact .cons ht ih
  | group opening close h _ _ ih =>
    rw [List.cons_append, List.append_assoc, List.cons_append]
    exact .group opening close h ih

theorem of_forall (h : ∀ t ∈ ts, t.isBrace = false) : Balanced ts := by
  induction ts with
  | nil => exact .nil
  | cons t ts ih =>
    obtain ⟨ht, hts⟩ := List.forall_mem_cons.1 h
    exact .cons ht (ih hts)

end Balanced

/-! ## Phrases -/

/-- An expression has no braces. -/
theorem ExprPhrase.Derives.balanced {p : ExprPhrase} {ts : List Token} (h : p.Derives ts) :
    Balanced ts := by
  induction h with
  | atom h => exact .cons (by cases h <;> rfl) .nil
  | group _ _ _ ih => exact .cons rfl (ih.append (.cons rfl .nil))
  | operand _ ih | suffixed _ ih | signed _ ih | tighter _ ih => exact ih
  | call _ _ _ _ ih ih' => exact ih.append (.cons rfl (ih'.append (.cons rfl .nil)))
  | member _ _ _ ih => exact ih.append (.cons rfl (.cons rfl .nil))
  | unary op _ _ ih => exact .cons (by cases op <;> rfl) ih
  | binary op _ _ _ ih ih' => exact ih.append (.cons (by cases op <;> rfl) ih')
  | noArguments | noMoreArguments => exact .nil
  | arguments _ _ ih ih' => exact ih.append ih'
  | moreArguments _ _ _ ih ih' => exact .cons rfl (ih.append ih')

theorem Expr.Derives.balanced {e : Expr} {ts : List Token} (h : e.Derives ts) : Balanced ts :=
  ExprPhrase.Derives.balanced h

theorem PathDerives.balanced {path : List Name} {ts : List Token} (h : PathDerives path ts) :
    Balanced ts := by
  induction h with
  | single => exact .cons rfl .nil
  | cons _ _ _ ih => exact .cons rfl (.cons rfl ih)

theorem InitDerives.balanced {init : Option Expr} {ts : List Token} (h : InitDerives init ts) :
    Balanced ts := by
  cases h with
  | none => exact .nil
  | some _ h => exact .cons rfl h.balanced

theorem Closes.balanced {last : Bool} {ts : List Token} (h : Closes last ts) : Balanced ts := by
  cases h with
  | semicolon => exact .cons rfl .nil
  | atEnd => exact .nil

/-- **The braces of a phrase belong together.** -/
theorem StmtPhrase.Derives.balanced {p : StmtPhrase} {ts : List Token} (h : p.Derives ts) :
    Balanced ts := by
  induction h with
  | untyped _ _ _ h hclose =>
    exact .cons rfl (.cons rfl (.cons rfl (h.balanced.append hclose.balanced)))
  | typed _ hpath hinit hclose =>
    exact hpath.balanced.append (.cons rfl (hinit.balanced.append hclose.balanced))
  | giveBackNothing _ hclose => exact .cons rfl hclose.balanced
  | giveBack _ h hclose | throwing _ h hclose =>
    exact .cons rfl (h.balanced.append hclose.balanced)
  | expr h hclose => exact h.balanced.append hclose.balanced
  | assign op _ h h' hclose =>
    exact h.balanced.append (.cons (by cases op <;> rfl) (h'.balanced.append hclose.balanced))
  | ofBranch _ ih | ofBlock _ ih | single _ ih => exact ih
  | loop _ _ _ h _ ih => exact .cons rfl (.cons rfl (h.balanced.append (.cons rfl ih)))
  | branch _ _ _ h _ _ ih ih' =>
    exact .cons rfl (.cons rfl (h.balanced.append (.cons rfl (ih.append ih'))))
  | nothing | nil => exact .nil
  | otherwiseBlock _ _ ih | otherwiseBranch _ _ ih => exact .cons rfl ih
  | block opening close _ ih => exact .group opening close ih .nil
  | cons _ _ ih ih' => exact ih.append ih'

/-! ## Closed tokens -/

/-- The tokens close `depth` braces that are open in front of them and all that they open, and the
last of them is one that a statement can end with. -/
inductive Closed : (depth : Nat) → List Token → Prop
  | nil : Closed 0 []
  | opening {depth : Nat} {ts : List Token} (span : Span) : Closed (depth + 1) ts →
    Closed depth (⟨.symbol .openBrace, span⟩ :: ts)
  | closing {depth : Nat} {ts : List Token} (span : Span) : Closed depth ts →
    Closed (depth + 1) (⟨.symbol .closeBrace, span⟩ :: ts)
  | semicolon {depth : Nat} {ts : List Token} (span : Span) : Closed depth ts →
    Closed depth (⟨.symbol .semicolon, span⟩ :: ts)
  | cons {depth : Nat} {t : Token} {ts : List Token} : t.isFence = false → ts ≠ [] →
    Closed depth ts → Closed depth (t :: ts)

/-- The last token, if there is one, is one that a statement can end with. -/
def EndsStmt (ts : List Token) : Prop := ∀ t ∈ ts.getLast?, t.endsStmt

theorem EndsStmt.suffix {ts us : List Token} (h : EndsStmt ts) (hus : us <:+ ts) : EndsStmt us := by
  obtain ⟨front, rfl⟩ := hus
  intro t ht
  refine h t ?_
  rw [List.getLast?_append, Option.mem_def.1 ht]
  rfl

theorem EndsStmt.concat {t : Token} (ts : List Token) (h : t.endsStmt) : EndsStmt (ts ++ [t]) := by
  intro u hu
  rw [List.getLast?_concat, Option.mem_some] at hu
  exact hu ▸ h

namespace Closed

variable {depth : Nat} {t : Token} {ts us : List Token} {span : Span}

theorem ne_nil (h : Closed (depth + 1) ts) : ts ≠ [] := by
  rintro rfl
  cases h

theorem of_openBrace (h : Closed depth (⟨.symbol .openBrace, span⟩ :: ts)) : Closed (depth + 1) ts := by
  cases h with
  | opening _ h => exact h
  | cons ht _ _ => cases ht

theorem of_closeBrace (h : Closed (depth + 1) (⟨.symbol .closeBrace, span⟩ :: ts)) :
    Closed depth ts := by
  cases h with
  | closing _ h => exact h
  | cons ht _ _ => cases ht

theorem of_semicolon (h : Closed depth (⟨.symbol .semicolon, span⟩ :: ts)) : Closed depth ts := by
  cases h with
  | semicolon _ h => exact h
  | cons ht _ _ => cases ht

end Closed

/-- The tokens are closed, and there are some. -/
structure Unfinished (depth : Nat) (ts : List Token) : Prop where
  closed : Closed depth ts
  ne_nil : ts ≠ []

theorem Closed.unfinished {depth : Nat} {ts : List Token} (h : Closed (depth + 1) ts) :
    Unfinished (depth + 1) ts := ⟨h, h.ne_nil⟩

/-- **Closed tokens have a fence**, up to which they stay closed. -/
theorem fenced_unfinished (depth : Nat) : Fenced (Unfinished depth) where
  ne_nil h := h.ne_nil
  tail h ht := by
    cases h.closed with
    | cons _ hne hts => exact ⟨hts, hne⟩
    | _ => cases ht

/-- A token that is no brace is a semicolon, or one within a simple statement. -/
theorem Token.semicolon_or (t : Token) (h : t.isBrace = false) :
    t.kind = .symbol .semicolon ∨ t.isFence = false ∧ t.endsStmt = false := by
  obtain ⟨kind, span⟩ := t
  cases kind with
  | symbol mark =>
    cases mark with
    | semicolon => exact .inl rfl
    | openBrace | closeBrace => cases h
    | _ => exact .inr ⟨rfl, rfl⟩
  | _ => exact .inr ⟨rfl, rfl⟩

/-- **Balanced tokens are closed**, if the last of them is one that a statement can end with. -/
theorem Balanced.closed {depth : Nat} {ts us : List Token} (h : Balanced ts) (hus : Closed depth us)
    (hends : EndsStmt (ts ++ us)) : Closed depth (ts ++ us) := by
  induction h generalizing depth us with
  | nil => exact hus
  | @cons t ts ht _ ih =>
    have htail := ih hus (hends.suffix (List.suffix_cons t _))
    rcases t.semicolon_or ht with hsemicolon | ⟨hfence, hlast⟩
    · obtain ⟨kind, span⟩ := t
      subst hsemicolon
      exact .semicolon span htail
    · refine .cons hfence (fun hnil ↦ ?_) htail
      have hends : EndsStmt (t :: (ts ++ us)) := hends
      rw [show ts ++ us = [] from hnil] at hends
      exact Bool.false_ne_true (hlast.symm.trans (hends t rfl))
  | @group ts us' opening close _ _ ih ih' =>
    rw [List.cons_append, List.append_assoc] at hends ⊢
    have hends := hends.suffix (List.suffix_cons _ _)
    have htail := ih' hus (hends.suffix ⟨ts ++ [⟨.symbol .closeBrace, close⟩], by simp⟩)
    exact .opening opening (ih (.closing close htail) hends)

/-! ## The end of a statement -/

theorem afterStatement_suffix (depth : Nat) (ts : List Token) : afterStatement depth ts <:+ ts := by
  fun_induction afterStatement depth ts with
  | case1 | case7 => exact List.suffix_refl _
  | case4 | case5 => exact List.suffix_cons _ _
  | case2 _ _ _ _ ih => exact ih.trans (List.suffix_cons _ _)
  | case3 _ _ _ _ _ ih | case6 _ _ _ _ _ ih => exact ih.trans (List.suffix_cons _ _)
  | case8 _ _ _ _ _ _ _ ih => exact ih.trans (List.suffix_cons _ _)

/-- The search goes on behind the first token. -/
theorem afterStatement_suffix_tail {depth : Nat} {t : Token} (ht : t.kind ≠ .done)
    (ts : List Token) : afterStatement depth (t :: ts) <:+ ts := by
  rw [afterStatement]
  split
  · exact afterStatement_suffix _ ts
  · split
    · exact afterStatement_suffix _ ts
    · exact List.suffix_refl ts
  · split
    · exact List.suffix_refl ts
    · exact afterStatement_suffix _ ts
  · rename_i hdone
    exact absurd hdone ht
  · exact afterStatement_suffix _ ts

/-- A token that is no fence is passed over. -/
theorem afterStatement_cons {t : Token} (ht : t.isFence = false) (hdone : t.kind ≠ .done)
    (depth : Nat) (ts : List Token) : afterStatement depth (t :: ts) = afterStatement depth ts := by
  rw [afterStatement]
  split
  -- the tokens that change the depth or end the search
  iterate 3
    · rename_i hkind
      rw [Token.isFence, hkind] at ht
      cases ht
  · rename_i hkind
    exact absurd hkind hdone
  · rfl

/-- **The end of a statement is found within closed tokens.** -/
theorem closed_afterStatement {depth : Nat} {ts : List Token} (h : Closed depth ts) (hne : ts ≠ [])
    (hdone : ∀ t ∈ ts, t.kind ≠ .done) (r : List Token) : Closed 0 (afterStatement depth ts) ∧
      afterStatement depth (ts ++ r) = afterStatement depth ts ++ r := by
  induction h with
  | nil => exact absurd rfl hne
  | opening span h ih => exact ih h.ne_nil (List.forall_mem_cons.1 hdone).2
  | @closing depth ts span h ih =>
    simp only [List.cons_append, afterStatement]
    cases depth with
    | zero => exact ⟨h, rfl⟩
    | succ depth => exact ih h.ne_nil (List.forall_mem_cons.1 hdone).2
  | @semicolon depth ts span h ih =>
    simp only [List.cons_append, afterStatement]
    cases depth with
    | zero => exact ⟨h, rfl⟩
    | succ depth => exact ih h.ne_nil (List.forall_mem_cons.1 hdone).2
  | @cons depth t ts ht hts h ih =>
    have hskip := afterStatement_cons ht (hdone t (List.mem_cons_self ..)) depth
    rw [List.cons_append, hskip, hskip]
    exact ih hts (List.forall_mem_cons.1 hdone).2

end Dossier.Script
