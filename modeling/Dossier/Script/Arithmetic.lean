import Dossier.Script.Fault

/-!
# Operators on values

What the operators of expressions do to values.

* Whole numbers wrap around at 64 bits, and division cuts toward zero; only division by zero fails.
* Where one operand is a whole number and the other a double, both are doubles.
* A plus sign next to a text joins the texts of both values.
* Numbers are ordered as doubles, and two values are equal as `Value.same` says.
-/

set_option autoImplicit false

namespace Dossier.Script

/-- A unary operator on a value. -/
def UnaryOp.apply (op : UnaryOp) (v : Value) : Except Fault Value :=
  match op, v with
  | .neg, .int n => .ok (.int (-n))
  | .neg, .float x => .ok (.float (-x))
  | .not, .bool b => .ok (.bool (!b))
  | op, v => .error (.operand op v.typeName)

namespace BinaryOp

/-- The fault of operands that an operator is not for. -/
def refuse (op : BinaryOp) (v w : Value) : Except Fault Value :=
  .error (.operands op v.typeName w.typeName)

/-- An operation on two numbers as doubles. -/
def onFloats (op : BinaryOp) (f : Float → Float → Value) (v w : Value) : Except Fault Value :=
  match v.number?, w.number? with
  | some x, some y => .ok (f x y)
  | _, _ => op.refuse v w

/-- An operation on two numbers: on whole ones the first function, otherwise the second. -/
def onNumbers (op : BinaryOp) (f : Int64 → Int64 → Except Fault Value)
    (g : Float → Float → Value) (v w : Value) : Except Fault Value :=
  match v, w with
  | .int a, .int b => f a b
  | v, w => op.onFloats g v w

/-- Is the value a text? -/
def isText : Value → Bool
  | .string _ => true
  | _ => false

/-- The sum of numbers, or the texts of two values joined if one of them is a text. -/
def sum (v w : Value) : Except Fault Value :=
  if (isText v || isText w) && !v.isVoid && !w.isVoid then .ok (.string (v.text ++ w.text))
  else
    onNumbers .add (fun a b ↦ .ok (.int (a + b))) (fun x y ↦ .float (x + y)) v w

/-- A division of whole numbers, which fails on zero. -/
def dividing (f : Int64 → Int64 → Int64) (a b : Int64) : Except Fault Value :=
  if b = 0 then .error .divideByZero else .ok (.int (f a b))

/-- An operation on two truth values. -/
def onBools (op : BinaryOp) (f : Bool → Bool → Bool) (v w : Value) : Except Fault Value :=
  match v, w with
  | .bool a, .bool b => .ok (.bool (f a b))
  | v, w => op.refuse v w

/-- A binary operator on two values that are both there.  In a run the second operand of `and` and
`or` is looked at only if the first does not decide; this is not done here. -/
def apply (op : BinaryOp) (v w : Value) : Except Fault Value :=
  match op with
  | add => sum v w
  | sub => onNumbers .sub (fun a b ↦ .ok (.int (a - b))) (fun x y ↦ .float (x - y)) v w
  | mul => onNumbers .mul (fun a b ↦ .ok (.int (a * b))) (fun x y ↦ .float (x * y)) v w
  | div => onNumbers .div (dividing (· / ·)) (fun x y ↦ .float (x / y)) v w
  | mod => onNumbers .mod (dividing (· % ·)) (fun x y ↦ .float (Number.floatMod x y)) v w
  | eq => .ok (.bool (v.same w))
  | ne => .ok (.bool (!v.same w))
  | lt => onFloats .lt (fun x y ↦ .bool (decide (x < y))) v w
  | le => onFloats .le (fun x y ↦ .bool (decide (x ≤ y))) v w
  | gt => onFloats .gt (fun x y ↦ .bool (decide (y < x))) v w
  | ge => onFloats .ge (fun x y ↦ .bool (decide (y ≤ x))) v w
  | and => onBools .and (· && ·) v w
  | or => onBools .or (· || ·) v w

end BinaryOp

end Dossier.Script
