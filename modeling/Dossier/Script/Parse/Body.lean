import Dossier.Script.Parse.Stmt
import Dossier.Script.Token.Scan

/-!
# Parsing bodies

A body is a row of statements.  An error in one does not stop the reading: the statement is left
out, and reading goes on after its end, so that one body can have several errors.

The end of a statement that cannot be parsed is found by `afterStatement` from its first token: a
semicolon outside of braces, or the brace that closes the first one opened.
-/

set_option autoImplicit false

namespace Dossier.Script

/-- The tokens after a statement that cannot be parsed; `depth` counts the braces that are open. -/
def afterStatement : (depth : Nat) → List Token → List Token
  | _, [] => []
  | depth, t :: ts =>
    match t.kind with
    | .symbol .openBrace => afterStatement (depth + 1) ts
    | .symbol .closeBrace => if 1 < depth then afterStatement (depth - 1) ts else ts
    | .symbol .semicolon => if depth = 0 then ts else afterStatement depth ts
    | .done => t :: ts
    | _ => afterStatement depth ts

/-- The statements of a body, and what is wrong with those that could not be parsed. -/
structure ParsedBody where
  /-- The statements. -/
  statements : List Stmt
  /-- The errors, in the order of their statements. -/
  errors : List SyntaxError

/-- The statements up to the end, `fuel` at most. -/
def parseStatements : (fuel : Nat) → List Token → ParsedBody
  | 0, _ => ⟨[], []⟩
  | fuel + 1, ts =>
    if atEnd ts then ⟨[], []⟩
    else
      match StmtLevel.outermost.statement ts with
      | .ok (s, rest) =>
        let more := parseStatements fuel rest
        ⟨s :: more.statements, more.errors⟩
      | .error o =>
        let more := parseStatements fuel (afterStatement 0 ts)
        ⟨more.statements, o.toSyntaxError :: more.errors⟩

/-- The statements and errors of a list of tokens: there are no more of them than tokens. -/
def parseTokens (ts : List Token) : ParsedBody := parseStatements ts.length ts

/-- The statements and errors of a body. -/
def parse (source : String) : ParsedBody := parseTokens (tokenize source)

end Dossier.Script
