import Dossier.Script.Parse.Body

/-!
# Parsing under watch

The parsers of a level take tokens off with `drop`, which has an answer for every list, and their loops
are bounded, so that a loop which does not come to an end would end all the same.  Here the same language
is parsed by loops that know nothing of levels, and they are watched.

* The depth is part of the stream that is parsed.  It is counted up on the way down, by a loop even with
  each of its rounds, and whoever has counted up sets it back at its own end (`restoring`).
* Tokens are taken off by `cut` alone, which says so (`Interruption.pastEnd`) where there are not so many.
* Each call and each round of a loop takes one from a number of rounds, and where none is left, the
  parser says so (`Interruption.unfinished`).  No loop is bounded in another way.

That the outcomes of the two ways to parse are the same is shown for expressions, for statements and for
bodies in the modules that build on this one.
-/

set_option autoImplicit false

namespace Dossier.Script

open Text (Span)

/-- Why a watched parser stops. -/
inductive Interruption where
  /-- Something stands in its way. -/
  | obstacle (o : Obstacle)
  /-- It takes off tokens that are not there. -/
  | pastEnd
  /-- It goes on beyond its rounds. -/
  | unfinished

/-- Tokens, and the depth at which they are parsed. -/
structure TokenStream where
  /-- What is left of the tokens. -/
  tokens : List Token
  /-- How many levels are around them. -/
  depth : Nat

/-- Takes an `α` off the front of a stream, under watch. -/
abbrev Watched (α : Type) := TokenStream → Except Interruption (α × TokenStream)

namespace Watched

variable {α β : Type}

/-! ## Tokens -/

/-- The stream behind its first `n` tokens, if there are so many. -/
def cut (n : Nat) (s : TokenStream) : Except Interruption TokenStream :=
  if n ≤ s.tokens.length then .ok { s with tokens := s.tokens.drop n } else .error .pastEnd

/-- Complains about the token at the front. -/
def refuse (complaint : Complaint) : Watched α :=
  fun s ↦ .error (.obstacle ⟨complaint, current s.tokens⟩)

/-- Goes on with what was taken, or does something else about an obstacle. -/
def recovering (x : Except Interruption α) (next : α → Except Interruption β)
    (instead : Obstacle → Except Interruption β) : Except Interruption β :=
  match x with
  | .ok a => next a
  | .error (.obstacle o) => instead o
  | .error .pastEnd => .error .pastEnd
  | .error .unfinished => .error .unfinished

/-- Goes on with what was taken, or does something else if a soft obstacle was met. -/
def unlessSoft (x : Except Interruption α) (next : α → Except Interruption β)
    (instead : Except Interruption β) : Except Interruption β :=
  recovering x next fun o ↦ if o.isFinal then .error (.obstacle o) else instead

/-- Goes one level down, if there is one. -/
def descending (parser : Watched α) : Watched α := fun s ↦
  if s.depth < maxNesting then parser { s with depth := s.depth + 1 } else refuse .tooComplex s

/-- What was taken, with the stream set back to a depth. -/
def setBack (depth : Nat) (x : Except Interruption (α × TokenStream)) :
    Except Interruption (α × TokenStream) :=
  x.map fun (a, rest) ↦ (a, { rest with depth })

/-- Comes back to the depth that the stream had before. -/
def restoring (parser : Watched α) : Watched α := fun s ↦ setBack s.depth (parser s)

/-- Goes one level down and comes back. -/
def nested (parser : Watched α) : Watched α := restoring (descending parser)

/-- Takes a symbol. -/
def takeSymbol (mark : Symbol) : Watched Token := fun s ↦
  if atSymbol mark s.tokens then do
    let rest ← cut 1 s
    .ok (current s.tokens, rest)
  else refuse (.symbol mark) s

/-- Takes a name. -/
def takeName : Watched Name := fun s ↦
  match (current s.tokens).kind with
  | .name text => do
    let rest ← cut 1 s
    .ok (⟨text, (current s.tokens).span⟩, rest)
  | _ => refuse .name s

/-! ## Expressions -/

/-- Takes the token at the front for an expression. -/
def leaf (e : Expr) : Watched Expr := fun s ↦ do
  let rest ← cut 1 s
  .ok (e, rest)

/-- A whole number. -/
def intLiteral (digits : String) : Watched Expr := fun s ↦ do
  let rest ← cut 1 s
  let n := Number.natOfDigits digits.toList
  if n < Number.twoTo 63 then
    .ok (.literal (.int (Int64.ofNat n)) (current s.tokens).span, rest)
  else refuse .numberTooLarge s

/-- An expression in parentheses. -/
def group (expression : Watched Expr) : Watched Expr := fun s ↦ do
  let (_, s) ← takeSymbol .openParen s
  let (inner, s) ← expression s
  let (_, s) ← takeSymbol .closeParen s
  .ok (inner, s)

/-- A literal, a name, `this`, or an expression in parentheses. -/
def operand (expression : Watched Expr) : Watched Expr := fun s ↦
  let span := (current s.tokens).span
  match (current s.tokens).kind with
  | .int digits => intLiteral digits s
  | .float digits => leaf (.literal (.float (Number.floatOfDigits digits.toList)) span) s
  | .string text => leaf (.literal (.string text) span) s
  | .keyword .trueWord => leaf (.literal (.bool true) span) s
  | .keyword .falseWord => leaf (.literal (.bool false) span) s
  | .keyword .nullWord => leaf (.literal .null span) s
  | .keyword .thisWord => leaf (.self span) s
  | .name text => leaf (.name ⟨text, span⟩) s
  | .symbol .openParen => unlessSoft (group expression s) .ok (refuse .term s)
  | _ => refuse .term s

/-- The loop over further arguments, each after a comma. -/
def moreArguments (expression : Watched Expr) : (rounds : Nat) → Watched (List Expr)
  | 0, _ => .error .unfinished
  | rounds + 1, s =>
    if atSymbol .comma s.tokens then do
      let (_, behind) ← takeSymbol .comma s
      unlessSoft (expression behind)
        (fun (arg, rest) ↦ do
          let (args, rest) ← moreArguments expression rounds rest
          .ok (arg :: args, rest))
        (.ok ([], s))
    else .ok ([], s)

/-- The arguments of a call, after its opening parenthesis. -/
def arguments (expression : Watched Expr) (rounds : Nat) : Watched (List Expr) := fun s ↦
  unlessSoft (expression s)
    (fun (arg, rest) ↦ do
      let (args, rest) ← moreArguments expression rounds rest
      .ok (arg :: args, rest))
    (.ok ([], s))

open ExprLevel (binaryOp? unaryOp?)

mutual

/-- Operands with operators of at least the level `least` between them. -/
def binary : (rounds least : Nat) → Watched Expr
  | 0, _, _ => .error .unfinished
  | rounds + 1, least, s =>
    restoring (fun s ↦ do
      let (left, s) ← unary rounds s
      operators rounds least left s) s

/-- The loop over operators of at least the level `least`.  Each is folded with all that was read before
it, one level further down, where the loop stays. -/
def operators : (rounds least : Nat) → (left : Expr) → Watched Expr
  | 0, _, _, _ => .error .unfinished
  | rounds + 1, least, left, s =>
    match binaryOp? (current s.tokens) with
    | none => .ok (left, s)
    | some op =>
      if op.level < least then .ok (left, s)
      else
        descending (fun s ↦ do
          let s ← cut 1 s
          let (right, s) ← binary rounds (op.level + 1) s
          operators rounds least (.binary op left right (left.span.cover right.span)) s) s

/-- An operand with the operators in front of it, and all that follows it more tightly than a binary
operator. -/
def unary : (rounds : Nat) → Watched Expr
  | 0, _ => .error .unfinished
  | rounds + 1, s =>
    match unaryOp? (current s.tokens) with
    | some op => do
      let rest ← cut 1 s
      let (operand, rest) ← nested (unary rounds) rest
      .ok (.unary op operand ((current s.tokens).span.cover operand.span), rest)
    | none =>
      restoring (fun s ↦ do
        let (base, s) ← operand (nested (binary rounds 0)) s
        suffixes rounds base s) s

/-- The loop over the calls and members that follow an operand, each one level further down. -/
def suffixes : (rounds : Nat) → (base : Expr) → Watched Expr
  | 0, _, _ => .error .unfinished
  | rounds + 1, base, s =>
    if atSymbol .openParen s.tokens then
      descending (fun s ↦ do
        let (_, s) ← takeSymbol .openParen s
        let (args, s) ← arguments (nested (binary rounds 0)) rounds s
        let (close, s) ← takeSymbol .closeParen s
        suffixes rounds (.call base args (base.span.cover close.span)) s) s
    else if atSymbol .dot s.tokens then
      descending (fun s ↦ do
        let (_, s) ← takeSymbol .dot s
        let (member, s) ← takeName s
        suffixes rounds (.member base member (base.span.cover member.span)) s) s
    else .ok (base, s)

end

/-- An expression, one level deeper. -/
def expression (rounds : Nat) : Watched Expr := nested (binary rounds 0)

/-! ## Simple statements -/

/-- Takes the end of a simple statement: a semicolon, or nothing at the end of the body. -/
def takeEnd : Watched Unit := fun s ↦
  if atSymbol .semicolon s.tokens then do
    let rest ← cut 1 s
    .ok ((), rest)
  else if atEnd s.tokens then .ok ((), s)
  else refuse (.symbol .semicolon) s

/-- A declaration without a type. -/
def untyped (expression : Watched Expr) : Watched Stmt := fun s ↦ do
  let start := (current s.tokens).span
  let s ← cut 1 s
  let (name, s) ← takeName s
  let (_, s) ← takeSymbol .assign s
  let (init, s) ← expression s
  let (_, s) ← takeEnd s
  .ok (.declare name none (some init) (start.cover init.span), s)

/-- The loop over the names of a type, each after a point. -/
def moreNames : (rounds : Nat) → Watched (List Name)
  | 0, _ => .error .unfinished
  | rounds + 1, s =>
    if atSymbol .dot s.tokens then do
      let (_, s) ← takeSymbol .dot s
      let (name, s) ← takeName s
      let (names, s) ← moreNames rounds s
      .ok (name :: names, s)
    else .ok ([], s)

/-- A declaration with a type. -/
def typed (expression : Watched Expr) (rounds : Nat) : Watched Stmt := fun s ↦ do
  let (first, s) ← takeName s
  let (more, s) ← moreNames rounds s
  let segments := first :: more
  let typeSpan := StmtLevel.coverNames segments
  let (name, s) ← takeName s
  let (init, s) ←
    if atSymbol .assign s.tokens then do
      let (_, s) ← takeSymbol .assign s
      let (init, s) ← expression s
      Except.ok (some init, s)
    else Except.ok (none, s)
  let (_, s) ← takeEnd s
  let span := typeSpan.cover ((init.map Expr.span).getD name.span)
  .ok (.declare name (some ⟨segments, typeSpan⟩) init span, s)

/-- A statement that gives a result. -/
def giveBack (expression : Watched Expr) : Watched Stmt := fun s ↦ do
  let start := (current s.tokens).span
  let s ← cut 1 s
  let (value, s) ←
    if atSymbol .semicolon s.tokens || atEnd s.tokens then Except.ok (none, s)
    else do
      let (value, s) ← expression s
      Except.ok (some value, s)
  let (_, s) ← takeEnd s
  .ok (.giveBack value ((value.map fun v ↦ start.cover v.span).getD start), s)

/-- A statement that throws. -/
def throwing (expression : Watched Expr) : Watched Stmt := fun s ↦ do
  let start := (current s.tokens).span
  let s ← cut 1 s
  let (value, s) ← expression s
  let (_, s) ← takeEnd s
  .ok (.throw value (start.cover value.span), s)

/-- An assignment or an expression. -/
def assignOrExpr (expression : Watched Expr) : Watched Stmt := fun s ↦ do
  let (e, s) ← expression s
  match StmtLevel.assignOp? (current s.tokens) with
  | some op =>
    let s ← cut 1 s
    let (value, s) ← expression s
    let (_, s) ← takeEnd s
    .ok (.assign op e value (e.span.cover value.span), s)
  | none =>
    let (_, s) ← takeEnd s
    .ok (.expr e e.span, s)

/-! ## Blocks and branches -/

/-- Statements between braces. -/
def braces (statements : Watched (List Stmt)) : Watched Block := fun s ↦ do
  let (opening, s) ← takeSymbol .openBrace s
  let (body, s) ← statements s
  let (close, s) ← takeSymbol .closeBrace s
  .ok (⟨body, opening.span.cover close.span⟩, s)

/-- A condition in parentheses. -/
def condition (expression : Watched Expr) : Watched Expr := fun s ↦ do
  let (_, s) ← takeSymbol .openParen s
  let (e, s) ← expression s
  let (_, s) ← takeSymbol .closeParen s
  .ok (e, s)

/-- What follows the block of a branch. -/
def otherwise (branch : Watched Branch) (block : Watched Block) : Watched Otherwise := fun s ↦
  if atKeyword .elseWord s.tokens then do
    let s ← cut 1 s
    if atKeyword .ifWord s.tokens then
      let (b, s) ← branch s
      .ok (.branch b.condition b.block.body b.block.span b.otherwise b.span, s)
    else
      let (b, s) ← block s
      .ok (.block b.body b.span, s)
  else .ok (.nothing, s)

/-- A branch, from the word `if` on. -/
def branchWith (expression : Watched Expr) (branch : Watched Branch) (block : Watched Block) :
    Watched Branch := fun s ↦ do
  let start := (current s.tokens).span
  let s ← cut 1 s
  let (condition, s) ← condition expression s
  let (body, s) ← block s
  let (otherwise, s) ← otherwise branch block s
  .ok (⟨condition, body, otherwise, start.cover (otherwise.span?.getD body.span)⟩, s)

/-- A loop of the language. -/
def loop (expression : Watched Expr) (block : Watched Block) : Watched Stmt := fun s ↦ do
  let start := (current s.tokens).span
  let s ← cut 1 s
  let (condition, s) ← condition expression s
  let (body, s) ← block s
  .ok (.loop condition body.body body.span (start.cover body.span), s)

mutual

/-- A statement. -/
def statement : (rounds : Nat) → Watched Stmt
  | 0, _ => .error .unfinished
  | rounds + 1, s =>
    let expression := expression rounds
    let block := nested (braces (statements rounds))
    match (current s.tokens).kind with
    | .keyword .varWord => untyped expression s
    | .keyword .returnWord => giveBack expression s
    | .keyword .throwWord => throwing expression s
    | .keyword .ifWord => do
      let (b, s) ← branch rounds s
      .ok (.branch b.condition b.block.body b.block.span b.otherwise b.span, s)
    | .keyword .whileWord => loop expression block s
    | .symbol .openBrace => do
      let (b, s) ← block s
      .ok (.block b.body b.span, s)
    | .symbol .closeBrace | .keyword .elseWord => refuse .statement s
    | _ =>
      if (StmtLevel.declarationHead? s.tokens).isSome then typed expression rounds s
      else assignOrExpr expression s

/-- A branch, from the word `if` on. -/
def branch : (rounds : Nat) → Watched Branch
  | 0, _ => .error .unfinished
  | rounds + 1, s =>
    branchWith (expression rounds) (nested (branch rounds)) (nested (braces (statements rounds))) s

/-- The loop over the statements of a block. -/
def statements : (rounds : Nat) → Watched (List Stmt)
  | 0, _ => .error .unfinished
  | rounds + 1, s =>
    if atSymbol .closeBrace s.tokens || atEnd s.tokens then .ok ([], s)
    else do
      let (first, s) ← statement rounds s
      let (more, s) ← statements rounds s
      .ok (first :: more, s)

end

/-! ## Bodies -/

/-- Looks for the end of a statement that cannot be parsed, `seen` tokens behind its first one, and takes
off all of the stream up to there; `braces` counts those that are open. -/
def cutStatement (s : TokenStream) : (seen braces : Nat) → List Token → Except Interruption TokenStream
  | seen, _, [] => cut seen s
  | seen, braces, t :: ts =>
    match t.kind with
    | .symbol .openBrace => cutStatement s (seen + 1) (braces + 1) ts
    | .symbol .closeBrace =>
      if 1 < braces then cutStatement s (seen + 1) (braces - 1) ts else cut (seen + 1) s
    | .symbol .semicolon =>
      if braces = 0 then cut (seen + 1) s else cutStatement s (seen + 1) braces ts
    | .done => cut seen s
    | _ => cutStatement s (seen + 1) braces ts

/-- The loop over the statements of a body. -/
def body : (rounds : Nat) → TokenStream → Except Interruption ParsedBody
  | 0, _ => .error .unfinished
  | rounds + 1, s =>
    if atEnd s.tokens then .ok ⟨[], []⟩
    else
      recovering (statement rounds s)
        (fun (stmt, rest) ↦ do
          let more ← body rounds rest
          .ok ⟨stmt :: more.statements, more.errors⟩)
        (fun o ↦ do
          let rest ← cutStatement s 0 0 s.tokens
          let more ← body rounds rest
          .ok ⟨more.statements, o.toSyntaxError :: more.errors⟩)

end Watched

end Dossier.Script
