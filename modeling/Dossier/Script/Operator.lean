import Dossier.Script.Token

/-!
# Operators

The operators of expressions and assignments, how tightly the binary ones bind, and the symbols
they are written with.  A higher `BinaryOp.level` binds tighter; all binary operators associate to
the left.
-/

set_option autoImplicit false

namespace Dossier.Script

/-- Operators before one operand. -/
inductive UnaryOp where
  | neg
  | not
  deriving DecidableEq, Repr, Inhabited

/-- Operators between two operands. -/
inductive BinaryOp where
  | add
  | sub
  | mul
  | div
  | mod
  | eq
  | ne
  | lt
  | le
  | gt
  | ge
  | and
  | or
  deriving DecidableEq, Repr, Inhabited

/-- What an assignment does to the old value; `none` replaces it. -/
inductive AssignOp where
  | set
  | add
  | sub
  | mul
  | div
  deriving DecidableEq, Repr, Inhabited

namespace UnaryOp

/-- The operator that a symbol means before an operand. -/
def ofSymbol? : Symbol → Option UnaryOp
  | .minus => some neg
  | .bang => some not
  | _ => none

/-- The symbol of the operator. -/
def symbol : UnaryOp → Symbol
  | neg => .minus
  | not => .bang

theorem ofSymbol?_symbol (op : UnaryOp) : ofSymbol? op.symbol = some op := by cases op <;> rfl

end UnaryOp

namespace BinaryOp

/-- How tightly the operator binds, from one for the disjunction to six for products. -/
def level : BinaryOp → Nat
  | or => 1
  | and => 2
  | eq | ne => 3
  | lt | le | gt | ge => 4
  | add | sub => 5
  | mul | div | mod => 6

/-- The operator that a symbol means between two operands. -/
def ofSymbol? : Symbol → Option BinaryOp
  | .plus => some add
  | .minus => some sub
  | .star => some mul
  | .slash => some div
  | .percent => some mod
  | .equal => some eq
  | .notEqual => some ne
  | .less => some lt
  | .lessEqual => some le
  | .greater => some gt
  | .greaterEqual => some ge
  | .both => some and
  | .either => some or
  | _ => none

/-- The symbol of the operator. -/
def symbol : BinaryOp → Symbol
  | add => .plus
  | sub => .minus
  | mul => .star
  | div => .slash
  | mod => .percent
  | eq => .equal
  | ne => .notEqual
  | lt => .less
  | le => .lessEqual
  | gt => .greater
  | ge => .greaterEqual
  | and => .both
  | or => .either

theorem ofSymbol?_symbol (op : BinaryOp) : ofSymbol? op.symbol = some op := by cases op <;> rfl

end BinaryOp

namespace AssignOp

/-- The operator that a symbol means between a variable and its new value. -/
def ofSymbol? : Symbol → Option AssignOp
  | .assign => some set
  | .plusAssign => some add
  | .minusAssign => some sub
  | .starAssign => some mul
  | .slashAssign => some div
  | _ => none

/-- The symbol of the operator. -/
def symbol : AssignOp → Symbol
  | set => .assign
  | add => .plusAssign
  | sub => .minusAssign
  | mul => .starAssign
  | div => .slashAssign

/-- The operator that a compound assignment applies to the old value. -/
def binary? : AssignOp → Option BinaryOp
  | set => none
  | add => some .add
  | sub => some .sub
  | mul => some .mul
  | div => some .div

theorem ofSymbol?_symbol (op : AssignOp) : ofSymbol? op.symbol = some op := by cases op <;> rfl

end AssignOp

end Dossier.Script
