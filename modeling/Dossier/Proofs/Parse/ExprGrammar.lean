import Dossier.Script.Parse.Expr
import Mathlib.Data.List.Chain

/-!
# The grammar of expressions

`ExprPhrase.Derives p ts` says that the tokens `ts` can be read as the phrase `p`, which is a tree
and the layer in which it stands.  The layers are, from the loosest on,

* six levels of binary operators, which associate to the left;
* operands with signs in front of them;
* operands with calls and members behind them;
* operands: what is an expression on its own, and groups, which leave no node.

How many digits an integer has and how deep a phrase nests is no concern of the grammar.

`Derives.proper`, `Derives.opens` and `Derives.apart` say what the tokens of phrases look like: none of
them is invalid, which ones can stand first, and that no two names stand side by side.
-/

set_option autoImplicit false

namespace Dossier.Script

open Text (Span)

/-! ## Tokens -/

namespace TokenKind

/-- Can such a token be part of a statement?  Not if it is no token, or the end of the body. -/
def isProper : TokenKind → Bool
  | invalid _ | done => false
  | _ => true

/-- Can such a token be the first of an operand? -/
def opensOperand : TokenKind → Bool
  | int _ | float _ | string _ | name _ => true
  | keyword .trueWord | keyword .falseWord | keyword .nullWord | keyword .thisWord => true
  | symbol .openParen => true
  | _ => false

/-- Can such a token be the first of an expression? -/
def opensExpr : TokenKind → Bool
  | symbol .minus | symbol .bang => true
  | kind => kind.opensOperand

/-- Is this a name? -/
def isName : TokenKind → Bool
  | name _ => true
  | _ => false

theorem isProper_of_opensExpr {kind : TokenKind} (h : kind.opensExpr) : kind.isProper := by
  cases kind with
  | invalid | done => exact absurd h Bool.false_ne_true
  | _ => rfl

theorem opensExpr_of_opensOperand {kind : TokenKind} (h : kind.opensOperand) : kind.opensExpr := by
  rw [opensExpr.eq_def]
  split
  · rfl
  · rfl
  · exact h

end TokenKind

theorem ne_nil_of_proper {ts : List Token} (h : (current ts).kind.isProper) : ts ≠ [] := by
  rintro rfl
  exact absurd h (by decide)

theorem current_append {ts : List Token} (h : ts ≠ []) (us : List Token) :
    current (ts ++ us) = current ts := by
  cases ts with
  | nil => exact absurd rfl h
  | cons t ts => rfl

/-- The first token of a list that starts with a proper one is that one. -/
theorem current_append_of_proper {ts : List Token} (h : (current ts).kind.isProper)
    (us : List Token) : current (ts ++ us) = current ts :=
  current_append (ne_nil_of_proper h) us

theorem kind_current_append {ts : List Token} {kind : TokenKind} (h : (current ts).kind = kind)
    (hkind : kind.isProper) (us : List Token) : (current (ts ++ us)).kind = kind := by
  subst h
  rw [current_append_of_proper hkind]

/-- A list that starts like an expression still does with more tokens behind it. -/
theorem opensExpr_append {ts : List Token} (h : (current ts).kind.opensExpr) (us : List Token) :
    (current (ts ++ us)).kind.opensExpr := by
  rwa [current_append_of_proper (TokenKind.isProper_of_opensExpr h)]

theorem opensOperand_append {ts : List Token} (h : (current ts).kind.opensOperand)
    (us : List Token) : (current (ts ++ us)).kind.opensOperand := by
  rwa [current_append_of_proper
    (TokenKind.isProper_of_opensExpr (TokenKind.opensExpr_of_opensOperand h))]

/-! ## The rules -/

/-- The token is an expression on its own. -/
inductive Atom : Token → Expr → Prop
  | int (digits : String) (span : Span) : Atom ⟨.int digits, span⟩
      (.literal (.int (Int64.ofNat (Number.natOfDigits digits.toList))) span)
  | float (digits : String) (span : Span) : Atom ⟨.float digits, span⟩
      (.literal (.float (Number.floatOfDigits digits.toList)) span)
  | string (text : String) (span : Span) : Atom ⟨.string text, span⟩ (.literal (.string text) span)
  | yes (span : Span) : Atom ⟨.keyword .trueWord, span⟩ (.literal (.bool true) span)
  | no (span : Span) : Atom ⟨.keyword .falseWord, span⟩ (.literal (.bool false) span)
  | null (span : Span) : Atom ⟨.keyword .nullWord, span⟩ (.literal .null span)
  | self (span : Span) : Atom ⟨.keyword .thisWord, span⟩ (.self span)
  | name (text : String) (span : Span) : Atom ⟨.name text, span⟩ (.name ⟨text, span⟩)

/-- What tokens can be read as. -/
inductive ExprPhrase where
  /-- An expression whose loosest binary operators bind as the level says, or tighter.  No operator
  has level zero, so that this is the level of all expressions. -/
  | operators (level : Nat) (e : Expr)
  /-- An operand with all that binds tighter than a binary operator. -/
  | signed (e : Expr)
  /-- An operand with the calls and members behind it. -/
  | suffixed (e : Expr)
  /-- An operand. -/
  | operand (e : Expr)
  /-- The arguments of a call. -/
  | arguments (args : List Expr)
  /-- The arguments of a call behind the first one. -/
  | moreArguments (args : List Expr)

/-- The tokens can be read as the phrase. -/
inductive ExprPhrase.Derives : ExprPhrase → List Token → Prop
  | atom {t : Token} {e : Expr} : Atom t e → Derives (.operand e) [t]
  | group {e : Expr} {ts : List Token} (opening close : Span) :
    Derives (.operators 0 e) ts →
    Derives (.operand e) (⟨.symbol .openParen, opening⟩ :: (ts ++ [⟨.symbol .closeParen, close⟩]))
  | operand {e : Expr} {ts : List Token} : Derives (.operand e) ts → Derives (.suffixed e) ts
  | call {base : Expr} {args : List Expr} {ts us : List Token} (opening close : Span) :
    Derives (.suffixed base) ts → Derives (.arguments args) us →
    Derives (.suffixed (.call base args (base.span.cover close)))
      (ts ++ ⟨.symbol .openParen, opening⟩ :: (us ++ [⟨.symbol .closeParen, close⟩]))
  | member {base : Expr} {ts : List Token} (point : Span) (m : Name) :
    Derives (.suffixed base) ts →
    Derives (.suffixed (.member base m (base.span.cover m.span)))
      (ts ++ [⟨.symbol .dot, point⟩, ⟨.name m.text, m.span⟩])
  | suffixed {e : Expr} {ts : List Token} : Derives (.suffixed e) ts → Derives (.signed e) ts
  | unary {e : Expr} {ts : List Token} (op : UnaryOp) (sign : Span) :
    Derives (.signed e) ts →
    Derives (.signed (.unary op e (sign.cover e.span))) (⟨.symbol op.symbol, sign⟩ :: ts)
  | signed {e : Expr} {ts : List Token} :
    Derives (.signed e) ts → Derives (.operators (BinaryOp.mul.level + 1) e) ts
  | tighter {level : Nat} {e : Expr} {ts : List Token} :
    Derives (.operators (level + 1) e) ts → Derives (.operators level e) ts
  | binary {l r : Expr} {ts us : List Token} (op : BinaryOp) (place : Span) :
    Derives (.operators op.level l) ts → Derives (.operators (op.level + 1) r) us →
    Derives (.operators op.level (.binary op l r (l.span.cover r.span)))
      (ts ++ ⟨.symbol op.symbol, place⟩ :: us)
  | noArguments : Derives (.arguments []) []
  | arguments {arg : Expr} {args : List Expr} {ts us : List Token} :
    Derives (.operators 0 arg) ts → Derives (.moreArguments args) us →
    Derives (.arguments (arg :: args)) (ts ++ us)
  | noMoreArguments : Derives (.moreArguments []) []
  | moreArguments {arg : Expr} {args : List Expr} {ts us : List Token} (comma : Span) :
    Derives (.operators 0 arg) ts → Derives (.moreArguments args) us →
    Derives (.moreArguments (arg :: args)) (⟨.symbol .comma, comma⟩ :: (ts ++ us))

/-- The tokens are an expression. -/
def Expr.Derives (e : Expr) (ts : List Token) : Prop := (ExprPhrase.operators 0 e).Derives ts

/-! ## What the tokens of phrases look like -/

theorem Atom.opensOperand {t : Token} {e : Expr} (h : Atom t e) : t.kind.opensOperand := by
  cases h <;> rfl

/-- No token of the list is invalid, or the end. -/
def AllProper (ts : List Token) : Prop := ∀ t ∈ ts, t.kind.isProper

@[simp] theorem allProper_nil : AllProper [] := fun _ ht ↦ absurd ht List.not_mem_nil

@[simp] theorem allProper_cons {t : Token} {ts : List Token} :
    AllProper (t :: ts) ↔ t.kind.isProper ∧ AllProper ts := List.forall_mem_cons

@[simp] theorem allProper_append {ts us : List Token} :
    AllProper (ts ++ us) ↔ AllProper ts ∧ AllProper us := List.forall_mem_append

@[simp] theorem TokenKind.isProper_name (text : String) : (name text).isProper := rfl

@[simp] theorem TokenKind.isProper_keyword (word : Keyword) : (keyword word).isProper := rfl

@[simp] theorem TokenKind.isProper_symbol (mark : Symbol) : (symbol mark).isProper := rfl

/-- The tokens are not two names. -/
def Apart (t u : Token) : Prop := ¬ (t.kind.isName ∧ u.kind.isName)

theorem apart_append {ts us : List Token} (hts : ts.IsChain Apart) (hus : us.IsChain Apart)
    (h : (current us).kind.isName = false) : (ts ++ us).IsChain Apart := by
  refine List.isChain_append.2 ⟨hts, hus, fun t _ u hu hnames ↦ ?_⟩
  rw [current, List.headD_eq_head?_getD, hu, Option.getD_some, hnames.2] at h
  exact Bool.noConfusion h

theorem apart_symbol {mark : Symbol} {span : Span} {ts : List Token} (h : ts.IsChain Apart) :
    (⟨.symbol mark, span⟩ :: ts).IsChain Apart := by
  refine List.isChain_cons.2 ⟨fun u _ hnames ↦ ?_, h⟩
  exact Bool.noConfusion hnames.1

theorem UnaryOp.opensExpr_symbol (op : UnaryOp) : (TokenKind.symbol op.symbol).opensExpr := by
  cases op <;> rfl

namespace ExprPhrase

variable {p : ExprPhrase} {ts : List Token}

/-- Which tokens can stand first in a phrase; arguments can be missing. -/
def Opens (ts : List Token) : ExprPhrase → Prop
  | operators _ _ | signed _ => (current ts).kind.opensExpr
  | suffixed _ | operand _ => (current ts).kind.opensOperand
  | arguments _ => ts = [] ∨ (current ts).kind.opensExpr
  | moreArguments _ => ts = [] ∨ (current ts).kind = .symbol .comma

/-- **How phrases start.** -/
theorem Derives.opens (h : p.Derives ts) : p.Opens ts := by
  induction h with
  | atom h => exact h.opensOperand
  | group => rfl
  | operand _ ih => exact ih
  | call _ _ _ _ ih => exact opensOperand_append ih _
  | member _ _ _ ih => exact opensOperand_append ih _
  | suffixed _ ih => exact TokenKind.opensExpr_of_opensOperand ih
  | unary op _ _ => exact op.opensExpr_symbol
  | signed _ ih => exact ih
  | tighter _ ih => exact ih
  | binary _ _ _ _ ih => exact opensExpr_append ih _
  | noArguments => exact .inl rfl
  | arguments _ _ ih => exact .inr (opensExpr_append ih _)
  | noMoreArguments => exact .inl rfl
  | moreArguments => exact .inr rfl

/-- **No token of a phrase is invalid, or the end.** -/
theorem Derives.proper (h : p.Derives ts) : AllProper ts := by
  induction h with
  | atom h =>
    rw [allProper_cons]
    exact ⟨TokenKind.isProper_of_opensExpr (TokenKind.opensExpr_of_opensOperand h.opensOperand),
      allProper_nil⟩
  | operand _ ih | suffixed _ ih | signed _ ih | tighter _ ih => exact ih
  | noArguments | noMoreArguments => exact allProper_nil
  | group _ _ _ ih => simp [ih]
  | call _ _ _ _ ih ih' => simp [ih, ih']
  | member _ _ _ ih => simp [ih]
  | unary _ _ _ ih => simp [ih]
  | binary _ _ _ _ ih ih' => simp [ih, ih']
  | arguments _ _ ih ih' => simp [ih, ih']
  | moreArguments _ _ _ ih ih' => simp [ih, ih']

theorem not_isName_of_moreArguments {args : List Expr} (h : (moreArguments args).Derives ts) :
    (current ts).kind.isName = false := by
  rcases h.opens with rfl | hcomma
  · rfl
  · rw [hcomma]
    rfl

/-- **No two names stand side by side in a phrase.** -/
theorem Derives.apart (h : p.Derives ts) : ts.IsChain Apart := by
  induction h with
  | atom => exact .singleton _
  | operand _ ih | suffixed _ ih | signed _ ih | tighter _ ih => exact ih
  | noArguments | noMoreArguments => exact .nil
  | group _ _ _ ih => exact apart_symbol (apart_append ih (.singleton _) rfl)
  | call _ _ _ _ ih ih' =>
    exact apart_append ih (apart_symbol (apart_append ih' (.singleton _) rfl)) rfl
  | member _ _ _ ih => exact apart_append ih (apart_symbol (.singleton _)) rfl
  | unary _ _ _ ih => exact apart_symbol ih
  | binary _ _ _ _ ih ih' => exact apart_append ih (apart_symbol ih') rfl
  | arguments _ h ih ih' => exact apart_append ih ih' (not_isName_of_moreArguments h)
  | moreArguments _ _ h ih ih' => exact apart_symbol (apart_append ih ih' (not_isName_of_moreArguments h))

end ExprPhrase

/-- A phrase of a tight level is one of each looser level. -/
theorem ExprPhrase.Derives.looser {e : Expr} {ts : List Token} {least level : Nat}
    (hle : least ≤ level) (h : (operators level e).Derives ts) :
    (operators least e).Derives ts := by
  induction hle with
  | refl => exact h
  | step _ ih => exact ih h.tighter

end Dossier.Script
