import Dossier.Number.Shortest
import Dossier.Script.Operator
import Dossier.Text.Blank

/-!
# Values

What a script computes with, and the types that parameters, results and typed locals have.

A value crosses into a typed place through `ValueType.coerce`: whole numbers widen to doubles, null
is a string and an object, and everything else must already be of the type.  The result of a void
method is a value only to a void result; `object` takes any other one.
-/

set_option autoImplicit false

namespace Dossier.Script

/-- Values. -/
inductive Value where
  /-- The result of a method that gives none. -/
  | void
  | null
  | int (n : Int64)
  | float (x : Float)
  | bool (b : Bool)
  | string (s : String)
  /-- An instance of the type with this full name; it holds nothing else. -/
  | object (typeName : String)
  deriving Repr, Inhabited

namespace Value

/-- The word for the type of the value in messages. -/
def typeName : Value → String
  | void => "void"
  | null => "null"
  | int _ => "int"
  | float _ => "double"
  | bool _ => "bool"
  | string _ => "string"
  | object _ => "object"

/-- Is this the result of a method that gives none? -/
def isVoid : Value → Bool
  | void => true
  | _ => false

/-- The text of a value as a script prints it. -/
def text : Value → String
  | void | null => ""
  | int n => Number.intText n.toInt
  | float x => Number.floatText x
  | bool b => if b then "True" else "False"
  | string s => s
  | object typeName => typeName

/-- The value as a double, if it is a number. -/
def number? : Value → Option Float
  | int n => some (Number.floatOfInt n)
  | float x => some x
  | _ => none

/-- Are the values equal to a script?  Whole numbers are compared exactly, a whole number and a
double as doubles, and values of different kinds are never equal. -/
def same : Value → Value → Bool
  | void, void => true
  | null, null => true
  | int a, int b => a == b
  | int a, float y => Number.floatOfInt a == y
  | float x, int b => x == Number.floatOfInt b
  | float x, float y => x == y
  | bool a, bool b => a == b
  | string s, string t => s == t
  | object s, object t => s == t
  | _, _ => false

end Value

/-- The types of parameters, results and typed locals. -/
inductive ValueType where
  | void
  | int
  | float
  | bool
  | string
  | object
  deriving DecidableEq, Repr, Inhabited

/-- Why a value cannot go where it is sent. -/
inductive CoercionError where
  /-- The result of a void method was used. -/
  | voidResult
  /-- A value of another type; `found` is the word for it. -/
  | mismatch (found : String) (wanted : ValueType)
  deriving DecidableEq, Repr

namespace ValueType

/-- The word for the type in messages. -/
def name : ValueType → String
  | void => "void"
  | int => "int"
  | float => "double"
  | bool => "bool"
  | string => "string"
  | object => "object"

/-- All types. -/
def all : List ValueType := [void, int, float, bool, string, object]

/-- The ways to write a type: with the module, without it, and as a word of the language. -/
def spellings : ValueType → List String
  | void => ["System.Void", "Void", "void"]
  | int => ["System.Int32", "Int32", "int", "System.Int64", "Int64", "long"]
  | float => ["System.Double", "Double", "double", "System.Single", "Single", "float"]
  | bool => ["System.Boolean", "Boolean", "bool"]
  | string => ["System.String", "String", "string"]
  | object => ["System.Object", "Object", "object"]

/-- The type that a text names; blanks around it do not count. -/
def ofText? (s : String) : Option ValueType :=
  let word := Text.trim s
  all.find? fun t ↦ t.spellings.contains word

/-- The value of a typed local before anything is assigned to it. -/
def defaultValue : ValueType → Value
  | void => .void
  | int => .int 0
  | float => .float 0.0
  | bool => .bool false
  | string | object => .null

/-- Sends a value to a place of the type. -/
def coerce (t : ValueType) (v : Value) : Except CoercionError Value :=
  match t, v with
  | object, .void => .error .voidResult
  | object, v => .ok v
  | int, .int n => .ok (.int n)
  | float, .float x => .ok (.float x)
  | float, .int n => .ok (.float (Number.floatOfInt n))
  | bool, .bool b => .ok (.bool b)
  | string, .string s => .ok (.string s)
  | string, .null => .ok .null
  | void, .void => .ok .void
  | t, v => .error (.mismatch v.typeName t)

end ValueType

/-- The wording of a coercion that fails. -/
def CoercionError.message : CoercionError → String
  | voidResult => "Cannot use a void result as a value"
  | mismatch found wanted =>
    "Cannot implicitly convert type " ++ quoted found ++ " to " ++ quoted wanted.name

end Dossier.Script
