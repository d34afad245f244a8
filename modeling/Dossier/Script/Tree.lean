import Dossier.Script.Operator

/-!
# Syntax trees

What a method body says, with the place of every part of it.  Parentheses leave nothing in the tree:
they only decide its shape.

The branches of an `if` form a chain: after the block there is nothing, a block, or another
condition with its own block and chain, so that the tree of an `else if` cannot be anything else
than a branch.
-/

set_option autoImplicit false

namespace Dossier.Script

open Text (Span)

/-! ## Expressions -/

/-- A name and where it stands. -/
structure Name where
  /-- The name. -/
  text : String
  /-- Its place. -/
  span : Span
  deriving DecidableEq, Repr, Inhabited

/-- The literals. -/
inductive Literal where
  | int (n : Int64)
  | float (x : Float)
  | string (s : String)
  | bool (b : Bool)
  | null
  deriving Repr, Inhabited

/-- Expressions. -/
inductive Expr where
  | literal (value : Literal) (span : Span)
  | name (name : Name)
  /-- The word `this`. -/
  | self (span : Span)
  | unary (op : UnaryOp) (operand : Expr) (span : Span)
  | binary (op : BinaryOp) (left right : Expr) (span : Span)
  | member (base : Expr) (member : Name) (span : Span)
  | call (callee : Expr) (args : List Expr) (span : Span)
  deriving Repr, Inhabited

namespace Expr

/-- Where the expression stands; parentheses around it do not count. -/
def span : Expr → Span
  | literal _ s => s
  | name n => n.span
  | self s => s
  | unary _ _ s => s
  | binary _ _ _ s => s
  | member _ _ s => s
  | call _ _ s => s

/-- The names of an expression that is nothing but names with points between them. -/
def path? : Expr → Option (List Name)
  | name n => some [n]
  | member base m _ => base.path?.map (· ++ [m])
  | _ => none

/-- Is this a call? -/
def isCall : Expr → Bool
  | call _ _ _ => true
  | _ => false

end Expr

/-- The names as they are written, with points between them. -/
def dotted (names : List Name) : String := ".".intercalate (names.map Name.text)

/-! ## Statements -/

/-- The name of a type as a declaration writes it. -/
structure TypeName where
  /-- Its parts, with points between them. -/
  segments : List Name
  /-- From the first part to the last. -/
  span : Span
  deriving DecidableEq, Repr, Inhabited

mutual

/-- Statements. -/
inductive Stmt where
  /-- A new local; without a type it takes that of its value. -/
  | declare (name : Name) (type : Option TypeName) (init : Option Expr) (span : Span)
  | assign (op : AssignOp) (target value : Expr) (span : Span)
  | giveBack (value : Option Expr) (span : Span)
  | branch (condition : Expr) (body : List Stmt) (bodySpan : Span) (otherwise : Otherwise)
      (span : Span)
  | loop (condition : Expr) (body : List Stmt) (bodySpan : Span) (span : Span)
  | throw (value : Expr) (span : Span)
  | block (body : List Stmt) (span : Span)
  | expr (expr : Expr) (span : Span)

/-- What follows the block of a branch. -/
inductive Otherwise where
  | nothing
  | block (body : List Stmt) (span : Span)
  | branch (condition : Expr) (body : List Stmt) (bodySpan : Span) (otherwise : Otherwise)
      (span : Span)

end

instance : Inhabited Stmt := ⟨.block [] default⟩

instance : Inhabited Otherwise := ⟨.nothing⟩

/-- Where the rest of a branch stands, if there is any. -/
def Otherwise.span? : Otherwise → Option Span
  | nothing => none
  | block _ s => some s
  | branch _ _ _ _ s => some s

end Dossier.Script
