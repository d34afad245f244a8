import Dossier.Script.Tree

/-!
# Parsing: the common ground

A `Parser` takes something off the front of a list of tokens, or says what stands in its way.

An `Obstacle` names the token that it met and what was wanted there.  Most obstacles are *soft*: a
list of arguments that meets one ends before it.  Two are *final*, a number that is too large and
nesting that is too deep: nothing is tried after them, and the whole statement is given up.
-/

set_option autoImplicit false

namespace Dossier.Script

open Text (Span)

/-! ## Obstacles -/

/-- What was wanted, or what is wrong with what was found. -/
inductive Complaint where
  /-- Only this symbol could stand here. -/
  | symbol (mark : Symbol)
  /-- Only a name could stand here. -/
  | name
  /-- An expression could not start here. -/
  | term
  /-- A statement could not start here. -/
  | statement
  /-- A whole number beyond 64 bits. -/
  | numberTooLarge
  /-- Parts within parts beyond `maxNesting`. -/
  | tooComplex
  deriving DecidableEq, Repr

/-- What stands in the way of a parser. -/
structure Obstacle where
  /-- What is wrong. -/
  complaint : Complaint
  /-- The token at which it is wrong. -/
  found : Token
  deriving DecidableEq, Repr

namespace Obstacle

/-- Is the statement given up, whatever else could be tried? -/
def isFinal (o : Obstacle) : Bool :=
  match o.complaint with
  | .numberTooLarge | .tooComplex => true
  | _ => false

/-- The wording of an obstacle.  A token that is no token is worse than any complaint about it. -/
def message (o : Obstacle) : String :=
  match o.found.kind with
  | .invalid text => "Unexpected character or unterminated literal " ++ quoted text
  | kind =>
    match o.complaint with
    | .symbol mark => quoted mark.spelling ++ " expected, found " ++ kind.describe
    | .name => "Identifier expected, found " ++ kind.describe
    | .term => "Invalid expression term " ++ kind.describe
    | .statement => "Invalid statement starting with " ++ kind.describe
    | .numberTooLarge => "Integral constant is too large"
    | .tooComplex => "An expression is too long or complex to compile"

end Obstacle

/-- A message about a stretch of a body. -/
structure SyntaxError where
  /-- What is wrong. -/
  message : String
  /-- Where. -/
  span : Span
  deriving DecidableEq, Repr

/-- The message about an obstacle, at the token that was found. -/
def Obstacle.toSyntaxError (o : Obstacle) : SyntaxError := ⟨o.message, o.found.span⟩

/-! ## Parsers -/

/-- Takes an `α` off the front of a list of tokens. -/
abbrev Parser (α : Type) := List Token → Except Obstacle (α × List Token)

/-- How many levels the parser goes down: for groups, operators, calls, members and blocks.  Trees can
nest deeper, because what is put around an operand does not count the levels that the operand took. -/
def maxNesting : Nat := 256

/-- The token at the front; where there is none, the end. -/
def current (ts : List Token) : Token := ts.headD ⟨.done, ⟨0, 0⟩⟩

/-- Is the end of the body at the front? -/
def atEnd (ts : List Token) : Bool := (current ts).kind == .done

/-- Is the symbol at the front? -/
def atSymbol (mark : Symbol) (ts : List Token) : Bool := (current ts).kind == .symbol mark

/-- Is the keyword at the front? -/
def atKeyword (word : Keyword) (ts : List Token) : Bool := (current ts).kind == .keyword word

/-- Complains about the token at the front. -/
def complain {α : Type} (complaint : Complaint) : Parser α :=
  fun ts ↦ .error ⟨complaint, current ts⟩

/-- Takes a symbol. -/
def takeSymbol (mark : Symbol) : Parser Token := fun ts ↦
  if atSymbol mark ts then .ok (current ts, ts.drop 1) else complain (.symbol mark) ts

/-- Takes a name. -/
def takeName : Parser Name := fun ts ↦
  match ts with
  | ⟨.name text, span⟩ :: rest => .ok (⟨text, span⟩, rest)
  | _ => complain .name ts

end Dossier.Script
