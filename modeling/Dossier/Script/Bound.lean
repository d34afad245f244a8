import Dossier.CompileUnit
import Dossier.Script.Library

/-!
# Bound programs

A program in which every name has been replaced by what it names: a local by a slot of its method's
frame, a call by the position of a class and of a method in it, or by a method of the library.

The slots of a frame are the parameters, in order, and after them one for each declaration in the
body, in the order of the text.  No slot is used for two declarations.

A `Signature` is what other methods can know of a method; a bound method is a signature with the
size of its frame and a body.
-/

set_option autoImplicit false

namespace Dossier.Script

/-! ## Signatures -/

/-- A parameter with its type and, if it has a default, the value that stands in for it. -/
structure BoundParam where
  /-- Its name. -/
  name : String
  /-- Its type. -/
  type : ValueType
  /-- Its default. -/
  default? : Option Value
  deriving Repr, Inhabited

/-- What can be known of a method without its body. -/
structure Signature where
  /-- Its name. -/
  name : String
  /-- Its name with those of its class and namespace in front. -/
  qualifiedName : String
  /-- Who may call it. -/
  visibility : Visibility
  /-- Does it do without an instance? -/
  isStatic : Bool
  /-- The type of its result. -/
  returns : ValueType
  /-- Its parameters. -/
  params : List BoundParam
  deriving Repr, Inhabited

namespace Signature

/-- The number of parameters that need an argument. -/
def required (s : Signature) : Nat := s.params.countP fun p ↦ p.default?.isNone

/-- Can the method be entered from outside of the program? -/
def isPublic (s : Signature) : Bool := s.visibility == .everyone

/-- Can the method be called from other classes? -/
def isShared (s : Signature) : Bool := s.visibility == .everyone || s.visibility == .assembly

end Signature

/-- What can be known of a class without the bodies of its methods. -/
structure ClassSignature where
  /-- The namespace of the class. -/
  namespaceName : String
  /-- Its name. -/
  name : String
  /-- Its name with that of its namespace in front. -/
  fullName : String
  /-- Does it do without instances? -/
  isStatic : Bool
  /-- Its methods. -/
  methods : List Signature
  deriving Repr, Inhabited

/-- The position of a method in its class. -/
def ClassSignature.findMethod? (c : ClassSignature) (name : String) : Option Nat :=
  c.methods.findIdx? fun m ↦ m.name == name

/-- The position of a class among others. -/
def findClassSignature? (cs : List ClassSignature) (fullName : String) : Option Nat :=
  cs.findIdx? fun c ↦ c.fullName == fullName

/-! ## Code -/

/-- Expressions without names. -/
inductive BoundExpr where
  | const (value : Value)
  | slot (index : Nat)
  /-- The instance that the method runs on. -/
  | self
  | unary (op : UnaryOp) (operand : BoundExpr)
  | binary (op : BinaryOp) (left right : BoundExpr)
  | library (method : LibraryMethod) (args : List BoundExpr)
  /-- A call of a method by the position of its class and its own; the callee runs on the instance
  that the caller runs on. -/
  | call (classIndex methodIndex : Nat) (args : List BoundExpr)
  deriving Repr, Inhabited

/-- Statements without names. -/
inductive BoundStmt where
  | declare (slot : Nat) (type : Option ValueType) (init : Option BoundExpr)
  | assign (slot : Nat) (type : Option ValueType) (op : Option BinaryOp) (value : BoundExpr)
  | giveBack (value : Option BoundExpr)
  | branch (condition : BoundExpr) (body otherwise : List BoundStmt)
  | loop (condition : BoundExpr) (body : List BoundStmt)
  | throw (value : BoundExpr)
  | block (body : List BoundStmt)
  | expr (expr : BoundExpr)
  deriving Repr, Inhabited

/-- A method that can be run. -/
structure BoundMethod extends Signature where
  /-- The number of slots: one for each parameter and each declaration. -/
  frameSize : Nat
  /-- What it does. -/
  body : List BoundStmt
  deriving Repr, Inhabited

/-- A class whose methods can be run. -/
structure BoundClass where
  /-- The namespace of the class. -/
  namespaceName : String
  /-- Its name. -/
  name : String
  /-- Its name with that of its namespace in front. -/
  fullName : String
  /-- Does it do without instances? -/
  isStatic : Bool
  /-- Its methods. -/
  methods : List BoundMethod
  deriving Repr, Inhabited

/-- The position of a method in its class. -/
def BoundClass.findMethod? (c : BoundClass) (name : String) : Option Nat :=
  c.methods.findIdx? fun m ↦ m.name == name

/-- A program that can be run. -/
structure BoundProgram where
  /-- Its classes. -/
  classes : List BoundClass
  deriving Repr, Inhabited

namespace BoundProgram

/-- The position of the class with a full name. -/
def findClass? (p : BoundProgram) (fullName : String) : Option Nat :=
  p.classes.findIdx? fun c ↦ c.fullName == fullName

/-- The method at a position in the class at a position. -/
def method? (p : BoundProgram) (classIndex methodIndex : Nat) : Option BoundMethod := do
  let c ← p.classes[classIndex]?
  c.methods[methodIndex]?

end BoundProgram

/-! ## Leaving a body -/

mutual

/-- Does every run that gets through the statement leave the method by it? -/
def BoundStmt.alwaysExits : BoundStmt → Bool
  | .giveBack _ => true
  | .throw _ => true
  | .block body => anyAlwaysExits body
  | .branch _ body otherwise => anyAlwaysExits body && anyAlwaysExits otherwise
  | .loop (.const (.bool true)) _ => true
  | _ => false

/-- Does a run of the statements always leave the method by one of them? -/
def anyAlwaysExits : List BoundStmt → Bool
  | [] => false
  | s :: rest => s.alwaysExits || anyAlwaysExits rest

end

end Dossier.Script
