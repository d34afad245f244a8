import Dossier.Proofs.Parse.ExprGrammar
import Dossier.Script.Parse.Stmt

/-!
# The grammar of statements

`StmtPhrase.Derives p ts` says that the tokens `ts` can be read as the phrase `p`: a statement, some
statements in a row, a block, a branch or what follows the block of a branch.

A simple statement is closed by a semicolon, or by the end of the body.  Whether this end follows is
part of the phrase: the flag of `StmtPhrase.statement` and `StmtPhrase.statements` is `true` for the
last statement of a body, and `false` for one with something behind it, if only a closing brace.

`BodyDerives ts body` says that all tokens in front of the end are statements.
-/

set_option autoImplicit false

namespace Dossier.Script

open Text (Span)

/-! ## The rules -/

/-- The tokens are names with points between them. -/
inductive PathDerives : List Name → List Token → Prop
  | single (n : Name) : PathDerives [n] [⟨.name n.text, n.span⟩]
  | cons {path : List Name} {ts : List Token} (n : Name) (point : Span) : PathDerives path ts →
    PathDerives (n :: path) (⟨.name n.text, n.span⟩ :: ⟨.symbol .dot, point⟩ :: ts)

/-- The tokens are the value that a declaration starts with, or there are none. -/
inductive InitDerives : Option Expr → List Token → Prop
  | none : InitDerives none []
  | some {e : Expr} {ts : List Token} (mark : Span) : e.Derives ts →
    InitDerives (some e) (⟨.symbol .assign, mark⟩ :: ts)

/-- The tokens close a simple statement; the flag tells whether the end of the body follows. -/
inductive Closes : Bool → List Token → Prop
  | semicolon (last : Bool) (span : Span) : Closes last [⟨.symbol .semicolon, span⟩]
  | atEnd : Closes true []

/-- What tokens can be read as. -/
inductive StmtPhrase where
  /-- A statement, and whether the end of the body follows. -/
  | statement (last : Bool) (s : Stmt)
  /-- Statements in a row, and whether the end of the body follows. -/
  | statements (last : Bool) (body : List Stmt)
  /-- Statements between braces. -/
  | block (b : Block)
  /-- A branch, from the word `if` on. -/
  | branch (b : Branch)
  /-- What follows the block of a branch. -/
  | otherwise (o : Otherwise)

/-- The place of a declaration with a type. -/
def typedSpan (segments : List Name) (name : Name) (init : Option Expr) : Span :=
  (StmtLevel.coverNames segments).cover ((init.map Expr.span).getD name.span)

/-- The tokens can be read as the phrase. -/
inductive StmtPhrase.Derives : StmtPhrase → List Token → Prop
  | untyped {last : Bool} {e : Expr} {ts close : List Token} (start mark : Span) (name : Name) :
    e.Derives ts → Closes last close →
    Derives (.statement last (.declare name none (some e) (start.cover e.span)))
      (⟨.keyword .varWord, start⟩ :: ⟨.name name.text, name.span⟩ :: ⟨.symbol .assign, mark⟩ ::
        (ts ++ close))
  | typed {last : Bool} {segments : List Name} {init : Option Expr} {ts us close : List Token}
      (name : Name) :
    PathDerives segments ts → InitDerives init us → Closes last close →
    Derives (.statement last (.declare name (some ⟨segments, StmtLevel.coverNames segments⟩) init
        (typedSpan segments name init)))
      (ts ++ ⟨.name name.text, name.span⟩ :: (us ++ close))
  | giveBackNothing {last : Bool} {close : List Token} (start : Span) :
    Closes last close →
    Derives (.statement last (.giveBack none start)) (⟨.keyword .returnWord, start⟩ :: close)
  | giveBack {last : Bool} {e : Expr} {ts close : List Token} (start : Span) :
    e.Derives ts → Closes last close →
    Derives (.statement last (.giveBack (some e) (start.cover e.span)))
      (⟨.keyword .returnWord, start⟩ :: (ts ++ close))
  | throwing {last : Bool} {e : Expr} {ts close : List Token} (start : Span) :
    e.Derives ts → Closes last close →
    Derives (.statement last (.throw e (start.cover e.span)))
      (⟨.keyword .throwWord, start⟩ :: (ts ++ close))
  | expr {last : Bool} {e : Expr} {ts close : List Token} :
    e.Derives ts → Closes last close →
    Derives (.statement last (.expr e e.span)) (ts ++ close)
  | assign {last : Bool} {target value : Expr} {ts us close : List Token} (op : AssignOp)
      (mark : Span) :
    target.Derives ts → value.Derives us → Closes last close →
    Derives (.statement last (.assign op target value (target.span.cover value.span)))
      (ts ++ ⟨.symbol op.symbol, mark⟩ :: (us ++ close))
  | ofBranch {last : Bool} {b : Branch} {ts : List Token} :
    Derives (.branch b) ts →
    Derives (.statement last (.branch b.condition b.block.body b.block.span b.otherwise b.span)) ts
  | loop {last : Bool} {condition : Expr} {b : Block} {ts us : List Token}
      (start opening close : Span) :
    condition.Derives ts → Derives (.block b) us →
    Derives (.statement last (.loop condition b.body b.span (start.cover b.span)))
      (⟨.keyword .whileWord, start⟩ :: ⟨.symbol .openParen, opening⟩ ::
        (ts ++ ⟨.symbol .closeParen, close⟩ :: us))
  | ofBlock {last : Bool} {b : Block} {ts : List Token} :
    Derives (.block b) ts → Derives (.statement last (.block b.body b.span)) ts
  | branch {condition : Expr} {b : Block} {o : Otherwise} {ts us vs : List Token}
      (start opening close : Span) :
    condition.Derives ts → Derives (.block b) us → Derives (.otherwise o) vs →
    Derives (.branch ⟨condition, b, o, start.cover (o.span?.getD b.span)⟩)
      (⟨.keyword .ifWord, start⟩ :: ⟨.symbol .openParen, opening⟩ ::
        (ts ++ ⟨.symbol .closeParen, close⟩ :: (us ++ vs)))
  | nothing : Derives (.otherwise .nothing) []
  | otherwiseBlock {b : Block} {ts : List Token} (word : Span) :
    Derives (.block b) ts →
    Derives (.otherwise (.block b.body b.span)) (⟨.keyword .elseWord, word⟩ :: ts)
  | otherwiseBranch {b : Branch} {ts : List Token} (word : Span) :
    Derives (.branch b) ts →
    Derives (.otherwise (.branch b.condition b.block.body b.block.span b.otherwise b.span))
      (⟨.keyword .elseWord, word⟩ :: ts)
  | block {body : List Stmt} {ts : List Token} (opening close : Span) :
    Derives (.statements false body) ts →
    Derives (.block ⟨body, opening.cover close⟩)
      (⟨.symbol .openBrace, opening⟩ :: (ts ++ [⟨.symbol .closeBrace, close⟩]))
  | nil {last : Bool} : Derives (.statements last []) []
  | single {last : Bool} {s : Stmt} {ts : List Token} :
    Derives (.statement last s) ts → Derives (.statements last [s]) ts
  | cons {last : Bool} {s : Stmt} {body : List Stmt} {ts us : List Token} :
    Derives (.statement false s) ts → Derives (.statements last body) us →
    Derives (.statements last (s :: body)) (ts ++ us)

/-- The tokens are the statements, with the end of the body behind them. -/
def BodyDerives (ts : List Token) (body : List Stmt) : Prop :=
  ∃ front span, ts = front ++ [⟨.done, span⟩] ∧ (StmtPhrase.statements true body).Derives front

/-! ## What the tokens of phrases look like -/

/-- Can such a token be the first of a statement? -/
def TokenKind.opensStmt : TokenKind → Bool
  | keyword .varWord | keyword .returnWord | keyword .throwWord => true
  | keyword .ifWord | keyword .whileWord | symbol .openBrace => true
  | kind => kind.opensExpr

theorem TokenKind.opensStmt_of_opensExpr {kind : TokenKind} (h : kind.opensExpr) :
    kind.opensStmt := by
  rw [opensStmt.eq_def]
  split <;> first | rfl | exact h

theorem TokenKind.isProper_of_opensStmt {kind : TokenKind} (h : kind.opensStmt) :
    kind.isProper := by
  cases kind with
  | invalid | done => exact absurd h Bool.false_ne_true
  | _ => rfl

/-- A token that can be the first of a statement is none that cannot. -/
theorem TokenKind.beq_eq_false_of_opensStmt {kind other : TokenKind} (h : kind.opensStmt)
    (hother : other.opensStmt = false) : (kind == other) = false := by
  rw [beq_eq_false_iff_ne]
  rintro rfl
  rw [h] at hother
  cases hother

theorem PathDerives.proper {path : List Name} {ts : List Token} (h : PathDerives path ts) :
    AllProper ts := by
  induction h with
  | single => simp
  | cons _ _ _ ih => simp [ih]

theorem Expr.Derives.proper {e : Expr} {ts : List Token} (h : e.Derives ts) : AllProper ts :=
  ExprPhrase.Derives.proper h

theorem InitDerives.proper {init : Option Expr} {ts : List Token} (h : InitDerives init ts) :
    AllProper ts := by
  cases h with
  | none => simp
  | some _ h => simp [h.proper]

theorem Closes.proper {last : Bool} {ts : List Token} (h : Closes last ts) : AllProper ts := by
  cases h <;> simp

namespace StmtPhrase

variable {p : StmtPhrase} {ts : List Token}

/-- **No token of a phrase is invalid, or the end.** -/
theorem Derives.proper (h : p.Derives ts) : AllProper ts := by
  induction h with
  | untyped _ _ _ h hclose => simp [h.proper, hclose.proper]
  | typed _ hpath hinit hclose => simp [hpath.proper, hinit.proper, hclose.proper]
  | giveBackNothing _ hclose => simp [hclose.proper]
  | giveBack _ h hclose | throwing _ h hclose => simp [h.proper, hclose.proper]
  | expr h hclose => simp [h.proper, hclose.proper]
  | assign _ _ h h' hclose => simp [h.proper, h'.proper, hclose.proper]
  | ofBranch _ ih | ofBlock _ ih | single _ ih => exact ih
  | loop _ _ _ h _ ih => simp [h.proper, ih]
  | branch _ _ _ h _ _ ih ih' => simp [h.proper, ih, ih']
  | nothing | nil => simp
  | otherwiseBlock _ _ ih | otherwiseBranch _ _ ih | block _ _ _ ih => simp [ih]
  | cons _ _ ih ih' => simp [ih, ih']

/-- Which tokens can stand first in a phrase. -/
def Opens (ts : List Token) : StmtPhrase → Prop
  | statement _ _ => (current ts).kind.opensStmt
  | statements _ _ => ts = [] ∨ (current ts).kind.opensStmt
  | block _ => (current ts).kind = .symbol .openBrace
  | branch _ => (current ts).kind = .keyword .ifWord
  | otherwise _ => ts = [] ∨ (current ts).kind = .keyword .elseWord

theorem opensStmt_append {ts : List Token} (h : (current ts).kind.opensStmt) (us : List Token) :
    (current (ts ++ us)).kind.opensStmt := by
  rwa [current_append_of_proper (TokenKind.isProper_of_opensStmt h)]

/-- **How phrases start.** -/
theorem Derives.opens (h : p.Derives ts) : p.Opens ts := by
  induction h with
  | typed _ hpath _ _ => cases hpath <;> rfl
  | expr h _ | assign _ _ h _ _ =>
    exact opensStmt_append (TokenKind.opensStmt_of_opensExpr (ExprPhrase.Derives.opens h)) _
  | ofBranch _ ih | ofBlock _ ih => exact (congrArg TokenKind.opensStmt ih).trans rfl
  | nothing | nil => exact .inl rfl
  | otherwiseBlock | otherwiseBranch => exact .inr rfl
  | single _ ih => exact .inr ih
  | cons _ _ ih => exact .inr (opensStmt_append ih _)
  | _ => rfl

end StmtPhrase

end Dossier.Script
