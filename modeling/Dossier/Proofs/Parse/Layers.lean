import Dossier.Proofs.Parse.Accepts
import Dossier.Proofs.Parse.Limits

/-!
# Binary operators in layers

The parser of expressions climbs by the levels of binary operators, and knows no layers; the grammar
has one layer for each level, and knows no operator that is met before its turn.
`expression_exact` says that they agree, at every depth and on all tokens.

* `BinaryOp.layers` lists the operators of the six layers, the loosest first.
* `EndsExpr` says what cannot follow an expression: a binary operator, the parenthesis of a call, the
  point of a member.  No other token goes on with one.
-/

set_option autoImplicit false

namespace Dossier.Script

/-! ## Layers -/

/-- The binary operators of each layer, the loosest layer first. -/
def BinaryOp.layers : List (List BinaryOp) :=
  [[or], [and], [eq, ne], [lt, le, gt, ge], [add, sub], [mul, div, mod]]

/-- The layer of an operator is the one that its level counts. -/
theorem BinaryOp.mem_layers_iff {i : Nat} {ops : List BinaryOp} (h : layers[i]? = some ops)
    (op : BinaryOp) : op ∈ ops ↔ op.level = i + 1 := by
  rcases i with _ | _ | _ | _ | _ | _ | i <;> cases h <;> cases op <;> decide

/-! ## What follows an expression -/

/-- The token at the front does not go on with an expression. -/
def EndsExpr (ts : List Token) : Prop :=
  ∀ mark, (current ts).kind = .symbol mark →
    mark ≠ .openParen ∧ mark ≠ .dot ∧ ∀ op : BinaryOp, mark ≠ op.symbol

/-- The loop over operators of all levels stops exactly there. -/
theorem stops_zero_iff {ts : List Token} : Stops 0 ts ↔ EndsExpr ts := by
  constructor
  · intro h mark hmark
    refine ⟨?_, ?_, ?_⟩
    · rintro rfl
      exact Bool.false_ne_true (h.noCall.symm.trans (beq_iff_eq.2 hmark))
    · rintro rfl
      exact Bool.false_ne_true (h.noMember.symm.trans (beq_iff_eq.2 hmark))
    · rintro op rfl
      have hop : ExprLevel.binaryOp? (current ts) = some op := by
        rw [ExprLevel.binaryOp?, hmark]
        exact op.ofSymbol?_symbol
      exact Nat.not_lt_zero _ (h.looser op hop)
  · intro h
    refine ⟨⟨?_, ?_⟩, fun op hop ↦ ?_⟩
    · rw [atSymbol, beq_eq_false_iff_ne]
      exact fun hmark ↦ (h _ hmark).1 rfl
    · rw [atSymbol, beq_eq_false_iff_ne]
      exact fun hmark ↦ (h _ hmark).2.1 rfl
    · exact absurd rfl ((h _ (ExprLevel.kind_of_binaryOp? hop)).2.2 op)

/-! ## The parser and the grammar -/

/-- What a parsed prefix has been read from, and what follows it. -/
theorem derives_of_expression {room : Nat} {ts rest : List Token} {e : Expr}
    (h : (ExprLevel.ofRoom room).expression ts = .ok (e, rest)) :
    ∃ us, ts = us ++ rest ∧ e.Derives us ∧ EndsExpr rest := by
  obtain ⟨us, hus, hderives, hstop⟩ := (ExprLevel.sound_ofRoom room).expression _ _ _ h
  exact ⟨us, hus, hderives, stops_zero_iff.1 hstop⟩

/-- What becomes of a prefix that derives a tree: this tree, or a limit that the tokens go beyond. -/
theorem expression_of_derives {e : Expr} {us rest : List Token} (h : e.Derives us)
    (hends : EndsExpr rest) (room : Nat) :
    (ExprLevel.ofRoom room).expression (us ++ rest) = .ok (e, rest) ∨
      ∃ o, (ExprLevel.ofRoom room).expression (us ++ rest) = .error o ∧
        o.toSyntaxError.AtLimit ∧ o.Due room 1 (us ++ rest) := by
  rcases h.parsed room rest (stops_zero_iff.2 hends) with hok | ⟨o, herror, hfinal, hproper⟩
  · exact .inl hok
  · refine .inr ⟨o, herror, o.atLimit_iff.2 ⟨hfinal, fun text hkind ↦ ?_⟩,
      (ExprLevel.limited_ofRoom room).expression herror⟩
    rw [hkind] at hproper
    cases hproper

/-- **Parsing an expression is deriving it in the layered grammar.**  What is parsed, at any depth and
from any tokens, has been read from a prefix that derives it, and no token follows that goes on with
it.  Where a prefix derives a tree, and none follows, this tree and the rest are the outcome, unless a
limit is reported, beyond which the tokens must go.  The layers of the grammar are those of
`BinaryOp.layers`. -/
theorem expression_exact (room : Nat) (ts : List Token) :
    (∀ e rest, (ExprLevel.ofRoom room).expression ts = .ok (e, rest) →
      ∃ us, ts = us ++ rest ∧ e.Derives us ∧ EndsExpr rest) ∧
    (∀ e us rest, ts = us ++ rest → e.Derives us → EndsExpr rest →
      (ExprLevel.ofRoom room).expression ts = .ok (e, rest) ∨
        ∃ o, (ExprLevel.ofRoom room).expression ts = .error o ∧ o.toSyntaxError.AtLimit ∧
          o.Due room 1 ts) ∧
    ∀ i ops, BinaryOp.layers[i]? = some ops → ∀ op, op ∈ ops ↔ op.level = i + 1 := by
  refine ⟨fun e rest ↦ derives_of_expression, ?_, fun i ops ↦ BinaryOp.mem_layers_iff⟩
  rintro e us rest rfl hderives hends
  exact expression_of_derives hderives hends room

/-- Operators of three levels, one of them twice. -/
def mixedText : String := "a - b - c * d < e;"

/-- The operators of a tree, folded as it is. -/
def Expr.shape : Expr → String
  | .binary op l r _ => "(" ++ l.shape ++ op.symbol.spelling ++ r.shape ++ ")"
  | .name n => n.text
  | _ => "?"

/-- The text is read as the tree that folds `-` to the left and `*` first, and it derives no other
before its semicolon. -/
theorem mixedText_exact : ∃ e rest,
    (ExprLevel.ofRoom maxNesting).expression (tokenize mixedText) = .ok (e, rest) ∧
      e.shape = "(((a-b)-(c*d))<e)" ∧ EndsExpr rest ∧
      (∃ us, tokenize mixedText = us ++ rest ∧ e.Derives us) ∧
      ∀ e' us rest', tokenize mixedText = us ++ rest' → e'.Derives us → EndsExpr rest' →
        e' = e ∧ rest' = rest := by
  have hshape : ((ExprLevel.ofRoom maxNesting).expression (tokenize mixedText)).toOption.map
      (fun r ↦ r.1.shape) = some "(((a-b)-(c*d))<e)" := by decide +kernel
  cases hparsed : (ExprLevel.ofRoom maxNesting).expression (tokenize mixedText) with
  | error o =>
    rw [hparsed] at hshape
    cases hshape
  | ok r =>
    obtain ⟨e, rest⟩ := r
    rw [hparsed] at hshape
    have hexact := expression_exact maxNesting (tokenize mixedText)
    obtain ⟨us, hus, hderives, hends⟩ := hexact.1 e rest hparsed
    refine ⟨e, rest, rfl, Option.some.inj hshape, hends, ⟨us, hus, hderives⟩, ?_⟩
    intro e' us' rest' hus' hderives' hends'
    rcases hexact.2.1 e' us' rest' hus' hderives' hends' with hok | ⟨o, herror, -⟩
    · rw [hparsed] at hok
      cases hok
      exact ⟨rfl, rfl⟩
    · rw [hparsed] at herror
      cases herror

end Dossier.Script
