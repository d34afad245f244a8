import Dossier.Number.Decimal
import Dossier.Number.Power
import Dossier.Script.Parse

/-!
# Parsing expressions

Binary operators are folded to the left by their level; `-` and `!` bind tighter than any of them,
and calls and members tighter still.

How deep an expression may nest is part of its grammar.  A `ExprLevel` holds the parsers for one
depth, each written with the help of the level *one deeper*, so that no parser calls itself; where
there is no deeper level, that step is refused as too complex.  `ExprLevel.ofRoom n` is the level
with `n` more below it.

Not only parentheses go deeper.  Each operator that is folded puts all that was read before it one
node further down, and so does each call and each member, so that these steps use up a level too.

A parser that carries its depth along with the tokens, counts it up on the way down and sets it back
at the end comes to the same outcomes; `Dossier.Proofs.Parse.WatchedExpr` compares the two.
-/

set_option autoImplicit false

namespace Dossier.Script

open Text (Span)

/-- The parsers of one depth. -/
structure ExprLevel where
  /-- An expression within the parts of this depth, and so one level deeper. -/
  expression : Parser Expr
  /-- Operands with operators of at least the given level between them. -/
  binary : Nat → Parser Expr
  /-- The operators of at least the given level, and their right operands, after a left one. -/
  operators : Nat → Expr → Parser Expr
  /-- An operand with the operators in front of it. -/
  unary : Parser Expr
  /-- The calls and members that follow an operand. -/
  suffixes : Expr → Parser Expr

namespace ExprLevel

/-- Goes on with a parser of the deeper level, if there is one. -/
def deeper {α : Type} (inner : Option ExprLevel) (parser : ExprLevel → Parser α) : Parser α :=
  match inner with
  | some level => parser level
  | none => complain .tooComplex

/-! ## Operands -/

/-- A whole number. -/
def intLiteral (digits : String) (span : Span) (ts rest : List Token) :
    Except Obstacle (Expr × List Token) :=
  let n := Number.natOfDigits digits.toList
  if n < Number.twoTo 63 then .ok (.literal (.int (Int64.ofNat n)) span, rest)
  else complain .numberTooLarge ts

/-- An expression in parentheses, after the opening one. -/
def group (expression : Parser Expr) : Parser Expr := fun ts ↦ do
  let (inner, ts) ← expression ts
  let (_, ts) ← takeSymbol .closeParen ts
  .ok (inner, ts)

/-- A literal, a name, `this`, or an expression in parentheses.  A soft obstacle within the
parentheses counts as one at the operand itself. -/
def operand (expression : Parser Expr) : Parser Expr := fun ts ↦
  match ts with
  | ⟨.int digits, span⟩ :: rest => intLiteral digits span ts rest
  | ⟨.float digits, span⟩ :: rest =>
    .ok (.literal (.float (Number.floatOfDigits digits.toList)) span, rest)
  | ⟨.string text, span⟩ :: rest => .ok (.literal (.string text) span, rest)
  | ⟨.keyword .trueWord, span⟩ :: rest => .ok (.literal (.bool true) span, rest)
  | ⟨.keyword .falseWord, span⟩ :: rest => .ok (.literal (.bool false) span, rest)
  | ⟨.keyword .nullWord, span⟩ :: rest => .ok (.literal .null span, rest)
  | ⟨.keyword .thisWord, span⟩ :: rest => .ok (.self span, rest)
  | ⟨.name text, span⟩ :: rest => .ok (.name ⟨text, span⟩, rest)
  | ⟨.symbol .openParen, _⟩ :: rest =>
    match group expression rest with
    | .ok r => .ok r
    | .error o => if o.isFinal then .error o else complain .term ts
  | _ => complain .term ts

/-! ## Arguments -/

/-- The arguments after a comma or a further one, `fuel` at most: a soft obstacle in an argument
ends the list before its comma. -/
def moreArguments (expression : Parser Expr) : (fuel : Nat) → Parser (List Expr)
  | 0, ts => .ok ([], ts)
  | fuel + 1, ts =>
    if atSymbol .comma ts then
      match expression (ts.drop 1) with
      | .ok (arg, rest) => do
        let (args, rest) ← moreArguments expression fuel rest
        .ok (arg :: args, rest)
      | .error o => if o.isFinal then .error o else .ok ([], ts)
    else .ok ([], ts)

/-- The arguments of a call, after its opening parenthesis: none if there is a soft obstacle in the
first. -/
def arguments (expression : Parser Expr) : Parser (List Expr) := fun ts ↦
  match expression ts with
  | .ok (arg, rest) => do
    let (args, rest) ← moreArguments expression rest.length rest
    .ok (arg :: args, rest)
  | .error o => if o.isFinal then .error o else .ok ([], ts)

/-! ## The parsers of a level -/

/-- The calls and members that follow an operand, each one level further down. -/
def suffixesWith (inner : Option ExprLevel) (base : Expr) : Parser Expr := fun ts ↦
  if atSymbol .openParen ts then
    deeper inner (fun level ts ↦ do
      let (args, ts) ← arguments level.expression (ts.drop 1)
      let (close, ts) ← takeSymbol .closeParen ts
      level.suffixes (.call base args (base.span.cover close.span)) ts) ts
  else if atSymbol .dot ts then
    deeper inner (fun level ts ↦ do
      let (member, ts) ← takeName (ts.drop 1)
      level.suffixes (.member base member (base.span.cover member.span)) ts) ts
  else .ok (base, ts)

/-- The operator before an operand, if the token is one. -/
def unaryOp? (t : Token) : Option UnaryOp :=
  match t.kind with
  | .symbol mark => UnaryOp.ofSymbol? mark
  | _ => none

/-- The operator between operands, if the token is one. -/
def binaryOp? (t : Token) : Option BinaryOp :=
  match t.kind with
  | .symbol mark => BinaryOp.ofSymbol? mark
  | _ => none

/-- An operand with the operators in front of it and all that follows it more tightly than a binary
operator. -/
def unaryWith (inner : Option ExprLevel) : Parser Expr := fun ts ↦
  match unaryOp? (current ts) with
  | some op => do
    let (operand, rest) ← deeper inner ExprLevel.unary (ts.drop 1)
    .ok (.unary op operand ((current ts).span.cover operand.span), rest)
  | none => do
    let (base, rest) ← operand (deeper inner fun level ↦ level.binary 0) ts
    suffixesWith inner base rest

/-- The operators of at least the level `least` after the left operand, folded to the left: the
right operand takes the operators that bind tighter. -/
def operatorsWith (inner : Option ExprLevel) (least : Nat) (left : Expr) : Parser Expr := fun ts ↦
  match binaryOp? (current ts) with
  | none => .ok (left, ts)
  | some op =>
    if op.level < least then .ok (left, ts)
    else
      deeper inner (fun level ts ↦ do
        let (right, ts) ← level.binary (op.level + 1) (ts.drop 1)
        level.operators least (.binary op left right (left.span.cover right.span)) ts) ts

/-- The parsers of a depth, from those one level deeper. -/
def above (inner : Option ExprLevel) : ExprLevel where
  expression := deeper inner fun level ↦ level.binary 0
  binary least := fun ts ↦ do
    let (left, ts) ← unaryWith inner ts
    operatorsWith inner least left ts
  operators := operatorsWith inner
  unary := unaryWith inner
  suffixes := suffixesWith inner

/-- The level with `room` levels below it. -/
def ofRoom : (room : Nat) → ExprLevel
  | 0 => above none
  | room + 1 => above (some (ofRoom room))

/-- The level that nothing encloses. -/
def outermost : ExprLevel := ofRoom maxNesting

end ExprLevel

/-! ## An expression on its own -/

/-- The expression that makes up the whole of the tokens. -/
def parseExpr (ts : List Token) : Except SyntaxError Expr :=
  match ExprLevel.outermost.expression ts with
  | .error o => .error o.toSyntaxError
  | .ok (e, rest) =>
    if atEnd rest then .ok e
    else
      let t := current rest
      .error ⟨"Unexpected " ++ t.kind.describe ++ " after expression", t.span⟩

end Dossier.Script
