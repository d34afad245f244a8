import Dossier.Number.Power
import Dossier.Script.Fault
import Dossier.Script.Writer

/-!
# The library

The methods that scripts can call without declaring them.  Each belongs to a class, and each class
to a module: a namespace reaches the classes of the modules it imports by their own name, and any
code reaches them with the module in front.

`LibraryMethod.apply` gives the text that a method has to write and what it returns then.  It has an
answer for every list of arguments of a length that `accepts` admits — `isSome_apply_of_accepts`.
`LibraryMethod.run` is the method at work: what it has to write is handed to a writer, and if the
writer fails then so does the method.
-/

set_option autoImplicit false

namespace Dossier.Script

/-- The methods of the library. -/
inductive LibraryMethod where
  | consoleWriteLine
  | consoleWrite
  | mathMax
  | mathMin
  | mathAbs
  | convertToString
  | convertToInt32
  | stringConcat
  | threadSleep
  deriving DecidableEq, Repr, Inhabited

namespace Library

/-- The modules that a namespace can import. -/
def modules : List String := ["System", "System.Threading"]

/-- Is there a module of this name? -/
def isModule (name : String) : Bool := modules.contains name

end Library

/-- What a library method does: the text it writes, and its result when that is written. -/
structure Effect where
  /-- What it writes. -/
  output : String
  /-- What it returns, or why it does not. -/
  result : Except Fault Value

namespace LibraryMethod

/-- All methods, in the order in which they are looked for. -/
def all : List LibraryMethod :=
  [consoleWriteLine, consoleWrite, mathMax, mathMin, mathAbs, convertToString, convertToInt32,
    stringConcat, threadSleep]

/-- The module of the class that has the method. -/
def moduleName : LibraryMethod → String
  | threadSleep => "System.Threading"
  | _ => "System"

/-- The class that has the method. -/
def className : LibraryMethod → String
  | consoleWriteLine | consoleWrite => "Console"
  | mathMax | mathMin | mathAbs => "Math"
  | convertToString | convertToInt32 => "Convert"
  | stringConcat => "String"
  | threadSleep => "Thread"

/-- The name of the method within its class. -/
def name : LibraryMethod → String
  | consoleWriteLine => "WriteLine"
  | consoleWrite => "Write"
  | mathMax => "Max"
  | mathMin => "Min"
  | mathAbs => "Abs"
  | convertToString => "ToString"
  | convertToInt32 => "ToInt32"
  | stringConcat => "Concat"
  | threadSleep => "Sleep"

/-- Module, class and name with points between them. -/
def qualifiedName (m : LibraryMethod) : String :=
  m.moduleName ++ "." ++ m.className ++ "." ++ m.name

/-- The least number of arguments, and the greatest if there is one. -/
def arity : LibraryMethod → Nat × Option Nat
  | consoleWriteLine => (0, some 1)
  | mathMax | mathMin => (2, some 2)
  | stringConcat => (0, none)
  | _ => (1, some 1)

/-- Can the method be called with this many arguments? -/
def accepts (m : LibraryMethod) (count : Nat) : Bool :=
  decide (m.arity.1 ≤ count) && m.arity.2.all fun most ↦ decide (count ≤ most)

/-- The number that a value is, or the fault of a value that is none. -/
def numberOf (v : Value) : Except Fault Float :=
  match v.number? with
  | some x => .ok x
  | none => .error (.notNumber v.typeName)

/-- Picks one of two numbers; two whole numbers stay whole. -/
def pick (ofInts : Int64 → Int64 → Int64) (ofFloats : Float → Float → Float) (v w : Value) :
    Except Fault Value :=
  match v, w with
  | .int a, .int b => .ok (.int (ofInts a b))
  | v, w => do
    let x ← numberOf v
    let y ← numberOf w
    .ok (.float (ofFloats x y))

/-- The distance from zero. -/
def absolute : Value → Except Fault Value
  | .int n =>
    if n = Int64.minValue then .error .noAbsoluteValue
    else .ok (.int (if n < 0 then -n else n))
  | v => do
    let x ← numberOf v
    .ok (.float (Number.floatAbs x))

/-- The whole number that a value stands for.  A text is a 32-bit number with blanks around it, and
null is zero. -/
def toInteger : Value → Except Fault Value
  | .int n => .ok (.int n)
  | .float x => .ok (.int (Number.floatToInt x))
  | .bool b => .ok (.int (if b then 1 else 0))
  | .null => .ok (.int 0)
  | .string s =>
    match Number.int? (-Number.twoTo 31) (Number.twoTo 31 - 1) (Text.trim s).toList with
    | some n => .ok (.int (Int64.ofInt n))
    | none => .error .notInteger
  | v => .error (.notConvertible v.typeName)

/-- A wait: only its length is checked, for time does not pass in this library. -/
def delay : Value → Except Fault Value
  | .int n => if 0 ≤ n then .ok .void else .error .negativeDelay
  | v => .error (.notDelay v.typeName)

/-- The effect of a method that writes nothing. -/
def silent (result : Except Fault Value) : Effect := ⟨"", result⟩

/-- Does the method hand a text to the writer, be it the empty one? -/
def writes : LibraryMethod → Bool
  | consoleWriteLine | consoleWrite => true
  | _ => false

/-- What a method does with its arguments; `none` if there are too few of them. -/
def apply : LibraryMethod → List Value → Option Effect
  | consoleWriteLine, [] => some ⟨"\n", .ok .void⟩
  | consoleWriteLine, v :: _ => some ⟨v.text ++ "\n", .ok .void⟩
  | consoleWrite, v :: _ => some ⟨v.text, .ok .void⟩
  | mathMax, v :: w :: _ =>
    some (silent (pick (fun a b ↦ if a < b then b else a) Number.floatMax v w))
  | mathMin, v :: w :: _ =>
    some (silent (pick (fun a b ↦ if b < a then b else a) Number.floatMin v w))
  | mathAbs, v :: _ => some (silent (absolute v))
  | convertToString, v :: _ => some (silent (.ok (.string v.text)))
  | convertToInt32, v :: _ => some (silent (toInteger v))
  | stringConcat, vs => some (silent (.ok (.string (String.join (vs.map Value.text)))))
  | threadSleep, v :: _ => some (silent (delay v))
  | _, _ => none

theorem isSome_apply_of_accepts {m : LibraryMethod} {args : List Value}
    (h : m.accepts args.length = true) : (m.apply args).isSome = true := by
  rcases args with _ | ⟨v, _ | ⟨w, rest⟩⟩ <;> cases m <;>
    first | rfl | simp [accepts, arity] at h

/-- What comes of an effect: what is to be written is handed to the writer, whose failure is one of
the method. -/
def carryOut (m : LibraryMethod) (effect : Effect) (out : Writer) : Except Fault Value × Writer :=
  if m.writes then
    match out.put effect.output with
    | (.ok (), out) => (effect.result, out)
    | (.error message, out) => (.error (.notWritten message), out)
  else (effect.result, out)

/-- Runs a method with a writer; `none` if there are too few arguments. -/
def run (m : LibraryMethod) (args : List Value) (out : Writer) :
    Option (Except Fault Value × Writer) :=
  (m.apply args).map fun effect ↦ m.carryOut effect out

end LibraryMethod

namespace Library

/-- Does one of the modules have a class of this name? -/
def hasClass (inModules : List String) (className : String) : Bool :=
  LibraryMethod.all.any fun m ↦ m.className == className && inModules.contains m.moduleName

/-- The method of a class in one of the modules. -/
def find? (inModules : List String) (className name : String) : Option LibraryMethod :=
  LibraryMethod.all.find? fun m ↦
    m.className == className && m.name == name && inModules.contains m.moduleName

end Library

end Dossier.Script
