import Dossier.Script.Parse.Expr

/-!
# Parsing statements

A simple statement ends with a semicolon, which the last one of a body may leave out.  A statement
that starts with two names, the first perhaps with points in it, is a declaration if the second name
is followed by `=`, a semicolon or the end; anything else that starts with a name is an expression
or an assignment.

Blocks nest like expressions do, and share their depth: a `StmtLevel` holds the parsers of one depth
and is written with the help of the one below it.
-/

set_option autoImplicit false

namespace Dossier.Script

open Text (Span)

/-- A block: its statements, and the place of its braces and all between them. -/
structure Block where
  /-- The statements. -/
  body : List Stmt
  /-- From brace to brace. -/
  span : Span

/-- A condition with its block and the chain of what else there is. -/
structure Branch where
  /-- The condition. -/
  condition : Expr
  /-- What is done if it holds. -/
  block : Block
  /-- What is done if it does not. -/
  otherwise : Otherwise
  /-- From the word `if` to the end of the chain. -/
  span : Span

/-- The parsers of one depth. -/
structure StmtLevel where
  /-- Expressions. -/
  exprs : ExprLevel
  /-- A statement. -/
  statement : Parser Stmt
  /-- A branch, from the word `if` on. -/
  branch : Parser Branch

namespace StmtLevel

/-- Goes on with a parser of the deeper level, if there is one. -/
def deeper {α : Type} (inner : Option StmtLevel) (parser : StmtLevel → Parser α) : Parser α :=
  match inner with
  | some level => parser level
  | none => complain .tooComplex

/-- Takes the end of a simple statement: a semicolon, or nothing at the end of the body. -/
def takeEnd : Parser Unit := fun ts ↦
  if atSymbol .semicolon ts then .ok ((), ts.drop 1)
  else if atEnd ts then .ok ((), ts)
  else complain (.symbol .semicolon) ts

/-! ## Simple statements -/

/-- The type and the name of a declaration, if the tokens are one. -/
def declarationHead? : List Token → Option (List Name × Name × List Token)
  | ⟨.name text, span⟩ :: ⟨.symbol .dot, _⟩ :: rest =>
    (declarationHead? rest).map fun (segments, name, rest) ↦ (⟨text, span⟩ :: segments, name, rest)
  | ⟨.name text, span⟩ :: ⟨.name name, nameSpan⟩ :: t :: rest =>
    if t.kind = .symbol .assign ∨ t.kind = .symbol .semicolon ∨ t.kind = .done then
      some ([⟨text, span⟩], ⟨name, nameSpan⟩, t :: rest)
    else none
  | _ => none

/-- The place of names with points between them. -/
def coverNames : List Name → Span
  | [] => ⟨0, 0⟩
  | first :: rest => rest.foldl (fun span n ↦ span.cover n.span) first.span

/-- A declaration without a type, after the word `var`, which stands at `start`. -/
def untyped (exprs : ExprLevel) (start : Span) : Parser Stmt := fun ts ↦ do
  let (name, ts) ← takeName ts
  let (_, ts) ← takeSymbol .assign ts
  let (init, ts) ← exprs.expression ts
  let (_, ts) ← takeEnd ts
  .ok (.declare name none (some init) (start.cover init.span), ts)

/-- A declaration with a type, after its name. -/
def typed (exprs : ExprLevel) (segments : List Name) (name : Name) : Parser Stmt := fun ts ↦ do
  let typeSpan := coverNames segments
  let (init, ts) ←
    if atSymbol .assign ts then do
      let (init, ts) ← exprs.expression (ts.drop 1)
      Except.ok (some init, ts)
    else Except.ok (none, ts)
  let (_, ts) ← takeEnd ts
  let span := typeSpan.cover ((init.map Expr.span).getD name.span)
  .ok (.declare name (some ⟨segments, typeSpan⟩) init span, ts)

/-- A statement that gives a result, after the word `return`, which stands at `start`. -/
def giveBack (exprs : ExprLevel) (start : Span) : Parser Stmt := fun ts ↦ do
  let (value, ts) ←
    if atSymbol .semicolon ts || atEnd ts then Except.ok (none, ts)
    else do
      let (value, ts) ← exprs.expression ts
      Except.ok (some value, ts)
  let (_, ts) ← takeEnd ts
  .ok (.giveBack value ((value.map fun v ↦ start.cover v.span).getD start), ts)

/-- A statement that throws, after the word `throw`, which stands at `start`. -/
def throwing (exprs : ExprLevel) (start : Span) : Parser Stmt := fun ts ↦ do
  let (value, ts) ← exprs.expression ts
  let (_, ts) ← takeEnd ts
  .ok (.throw value (start.cover value.span), ts)

/-- The operator of an assignment, if the token is one. -/
def assignOp? (t : Token) : Option AssignOp :=
  match t.kind with
  | .symbol mark => AssignOp.ofSymbol? mark
  | _ => none

/-- An assignment or an expression. -/
def assignOrExpr (exprs : ExprLevel) : Parser Stmt := fun ts ↦ do
  let (e, ts) ← exprs.expression ts
  match assignOp? (current ts) with
  | some op =>
    let (value, ts) ← exprs.expression (ts.drop 1)
    let (_, ts) ← takeEnd ts
    .ok (.assign op e value (e.span.cover value.span), ts)
  | none =>
    let (_, ts) ← takeEnd ts
    .ok (.expr e e.span, ts)

/-! ## Blocks and branches -/

/-- Statements up to a closing brace or the end, `fuel` at most. -/
def statements (statement : Parser Stmt) : (fuel : Nat) → Parser (List Stmt)
  | 0, ts => .ok ([], ts)
  | fuel + 1, ts =>
    if atSymbol .closeBrace ts || atEnd ts then .ok ([], ts)
    else do
      let (first, ts) ← statement ts
      let (more, ts) ← statements statement fuel ts
      .ok (first :: more, ts)

/-- Statements between braces. -/
def braces (statement : Parser Stmt) : Parser Block := fun ts ↦ do
  let (opening, ts) ← takeSymbol .openBrace ts
  let (body, ts) ← statements statement ts.length ts
  let (close, ts) ← takeSymbol .closeBrace ts
  .ok (⟨body, opening.span.cover close.span⟩, ts)

/-- A block, one level deeper. -/
def block (inner : Option StmtLevel) : Parser Block :=
  deeper inner fun level ↦ braces level.statement

/-- A condition in parentheses. -/
def condition (exprs : ExprLevel) : Parser Expr := fun ts ↦ do
  let (_, ts) ← takeSymbol .openParen ts
  let (e, ts) ← exprs.expression ts
  let (_, ts) ← takeSymbol .closeParen ts
  .ok (e, ts)

/-- What follows the block of a branch: the word `else` with another branch, one level deeper, or
with a block; or nothing. -/
def otherwise (inner : Option StmtLevel) : Parser Otherwise := fun ts ↦
  if atKeyword .elseWord ts then
    if atKeyword .ifWord (ts.drop 1) then do
      let (b, ts) ← deeper inner StmtLevel.branch (ts.drop 1)
      .ok (.branch b.condition b.block.body b.block.span b.otherwise b.span, ts)
    else do
      let (b, ts) ← block inner (ts.drop 1)
      .ok (.block b.body b.span, ts)
  else .ok (.nothing, ts)

/-- A branch, from the word `if` on. -/
def branchWith (exprs : ExprLevel) (inner : Option StmtLevel) : Parser Branch := fun ts ↦ do
  let start := (current ts).span
  let (condition, ts) ← condition exprs (ts.drop 1)
  let (block, ts) ← block inner ts
  let (otherwise, ts) ← otherwise inner ts
  .ok (⟨condition, block, otherwise, start.cover (otherwise.span?.getD block.span)⟩, ts)

/-- A loop, after the word `while`, which stands at `start`. -/
def loop (exprs : ExprLevel) (inner : Option StmtLevel) (start : Span) : Parser Stmt := fun ts ↦ do
  let (condition, ts) ← condition exprs ts
  let (block, ts) ← block inner ts
  .ok (.loop condition block.body block.span (start.cover block.span), ts)

/-! ## The parsers of a level -/

/-- A statement. -/
def statementWith (exprs : ExprLevel) (inner : Option StmtLevel) : Parser Stmt := fun ts ↦
  let span := (current ts).span
  match (current ts).kind with
  | .keyword .varWord => untyped exprs span (ts.drop 1)
  | .keyword .returnWord => giveBack exprs span (ts.drop 1)
  | .keyword .throwWord => throwing exprs span (ts.drop 1)
  | .keyword .ifWord => do
    let (b, ts) ← branchWith exprs inner ts
    .ok (.branch b.condition b.block.body b.block.span b.otherwise b.span, ts)
  | .keyword .whileWord => loop exprs inner span (ts.drop 1)
  | .symbol .openBrace => do
    let (b, ts) ← block inner ts
    .ok (.block b.body b.span, ts)
  | .symbol .closeBrace | .keyword .elseWord => complain .statement ts
  | _ =>
    match declarationHead? ts with
    | some (segments, name, rest) => typed exprs segments name rest
    | none => assignOrExpr exprs ts

/-- The parsers of a depth, from those one level deeper. -/
def above (inner : Option StmtLevel) : StmtLevel :=
  let exprs := ExprLevel.above (inner.map StmtLevel.exprs)
  { exprs, statement := statementWith exprs inner, branch := branchWith exprs inner }

/-- The level with `room` levels below it. -/
def ofRoom : (room : Nat) → StmtLevel
  | 0 => above none
  | room + 1 => above (some (ofRoom room))

/-- The level that nothing encloses. -/
def outermost : StmtLevel := ofRoom maxNesting

end StmtLevel

/-- The expressions of a level are those of the same depth. -/
theorem StmtLevel.exprs_ofRoom (room : Nat) :
    (StmtLevel.ofRoom room).exprs = ExprLevel.ofRoom room := by
  induction room with
  | zero => rfl
  | succ room ih => simp [StmtLevel.ofRoom, StmtLevel.above, ExprLevel.ofRoom, ih]

end Dossier.Script
