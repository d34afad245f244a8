import Dossier.Script.Value

/-!
# Faults

The ways in which running a method can fail, and a failure as the caller sees it: the fault and the
method whose code was running when it arose.
-/

set_option autoImplicit false

namespace Dossier.Script

/-- Why a run failed. -/
inductive Fault where
  /-- A value was sent to a place of another type. -/
  | coercion (error : CoercionError)
  /-- A unary operator met an operand that it is not for. -/
  | operand (op : UnaryOp) (found : String)
  /-- A binary operator met operands that it is not for. -/
  | operands (op : BinaryOp) (left right : String)
  | divideByZero
  /-- The script threw a value; `text` is its text. -/
  | thrown (text : String)
  /-- The script threw null. -/
  | thrownNull
  /-- Too many calls were open. -/
  | stackOverflow
  /-- A call left out an argument that has no default. -/
  | missingArgument (parameter : String)
  /-- The result of a void method was passed on. -/
  | voidArgument
  /-- A local without a type was declared with the result of a void method. -/
  | voidLocal
  /-- A library method was called with something that is no number. -/
  | notNumber (found : String)
  /-- The absolute value of the least number. -/
  | noAbsoluteValue
  /-- A text that is no 32-bit number. -/
  | notInteger
  /-- A value that cannot be a number. -/
  | notConvertible (found : String)
  /-- A negative time to sleep. -/
  | negativeDelay
  /-- A time to sleep that is no number. -/
  | notDelay (found : String)
  /-- A text could not be written; `message` is what the writer says. -/
  | notWritten (message : String)
  deriving DecidableEq, Repr

/-- The wording of a fault. -/
def Fault.message : Fault → String
  | coercion error => error.message
  | operand op found =>
    "Operator " ++ quoted op.symbol.spelling ++ " cannot be applied to operand of type " ++
      quoted found
  | operands op left right =>
    "Operator " ++ quoted op.symbol.spelling ++ " cannot be applied to operands of type " ++
      quoted left ++ " and " ++ quoted right
  | divideByZero => "Attempted to divide by zero."
  | thrown text => text
  | thrownNull => "Value cannot be null."
  | stackOverflow => "Stack overflow"
  | missingArgument parameter => "No value given for parameter " ++ quoted parameter
  | voidArgument => "Cannot pass a void result as an argument"
  | voidLocal => "Cannot assign void to an implicitly-typed variable"
  | notNumber found => "Argument of type " ++ quoted found ++ " is not a number"
  | noAbsoluteValue => "Negating the minimum value of a twos complement number is invalid."
  | notInteger => "Input string was not in a correct format."
  | notConvertible found => "Unable to cast " ++ quoted found ++ " to an int"
  | negativeDelay => "Number must be either non-negative or -1."
  | notDelay found => "Cannot sleep for a value of type " ++ quoted found
  | notWritten message => message

/-- A run that failed. -/
structure Failure where
  /-- The qualified name of the method that was running. -/
  method : String
  /-- What went wrong in it. -/
  fault : Fault
  deriving DecidableEq, Repr

/-- What went wrong, and in brackets where. -/
def Failure.text (f : Failure) : String := f.fault.message ++ " (in " ++ f.method ++ ")"

end Dossier.Script
