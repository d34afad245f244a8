import Dossier.Diagnostic
import Dossier.Script.Bound
import Dossier.Script.Parse

/-!
# Problems

Everything that keeps a compile unit from being bound, with the code and the wording of each.  A
problem is about a signature, or about a stretch of a body.
-/

set_option autoImplicit false

namespace Dossier.Script

/-- What keeps a compile unit from being bound. -/
inductive Problem where
  /-- A reference names no module. -/
  | unknownReference (name : String)
  /-- Two classes of a namespace have one name. -/
  | duplicateClass (namespaceName name : String)
  /-- Two methods of a class have one name. -/
  | duplicateMethod (className name : String)
  /-- A class without instances has a method that needs one. -/
  | instanceMember (method : String)
  /-- Two parameters of a method have one name. -/
  | duplicateParameter (name method : String)
  /-- A signature names no type. -/
  | unknownSignatureType (type method : String)
  /-- A parameter has the type of no value. -/
  | voidParameter (name method : String)
  /-- A default is no literal. -/
  | defaultNotConstant (parameter method : String)
  /-- A default is no value of its parameter's type. -/
  | defaultMismatch (found parameter method : String) (type : ValueType)
  /-- A body cannot be parsed. -/
  | syntaxError (message : String)
  /-- A run of a method with a result could end without one. -/
  | missingReturn (method : String)
  /-- A name is no local, parameter, method or class. -/
  | unknownName (name : String)
  /-- A body names no type or namespace. -/
  | unknownType (name : String)
  /-- A local has the type of no value. -/
  | voidLocalType
  /-- A local has the name of one that is in scope. -/
  | duplicateLocal (name : String)
  /-- Something else than a variable is assigned to. -/
  | notAssignable
  /-- A statement is an expression without effect. -/
  | notStatement
  /-- A method without a result gives one. -/
  | unexpectedResult (method : String)
  /-- A method with a result gives none. -/
  | expectedResult (type : ValueType)
  /-- A method without an instance speaks of it. -/
  | selfInStatic
  /-- A class or value has no such member. -/
  | noMember (owner name : String)
  /-- A value without a name has no such member. -/
  | noMemberOfValue (name : String)
  /-- Something else than a method is called. -/
  | notCallable
  /-- A method cannot be called with so many arguments. -/
  | argumentCount (name : String) (count : Nat)
  /-- A method of another class may not be called. -/
  | inaccessible (method : String)
  /-- A method without an instance is called on one. -/
  | staticOnInstance (method : String)
  /-- A method is called without the instance that it needs. -/
  | noInstance (method : String)
  deriving DecidableEq, Repr

namespace Problem

/-- The code of a problem. -/
def code : Problem → String
  | unknownReference _ => "JS0006"
  | duplicateClass _ _ => "JS0101"
  | duplicateMethod _ _ => "JS0111"
  | instanceMember _ => "JS0708"
  | duplicateParameter _ _ => "JS0100"
  | unknownSignatureType _ _ => "JS0246"
  | voidParameter _ _ => "JS1536"
  | defaultNotConstant _ _ => "JS1736"
  | defaultMismatch _ _ _ _ => "JS1750"
  | syntaxError _ => "JS1002"
  | missingReturn _ => "JS0161"
  | unknownName _ => "JS0103"
  | unknownType _ => "JS0246"
  | voidLocalType => "JS1547"
  | duplicateLocal _ => "JS0128"
  | notAssignable => "JS0131"
  | notStatement => "JS0201"
  | unexpectedResult _ => "JS0127"
  | expectedResult _ => "JS0127"
  | selfInStatic => "JS0026"
  | noMember _ _ => "JS0117"
  | noMemberOfValue _ => "JS0117"
  | notCallable => "JS0149"
  | argumentCount _ _ => "JS1501"
  | inaccessible _ => "JS0122"
  | staticOnInstance _ => "JS0176"
  | noInstance _ => "JS0120"

/-- The wording of a problem. -/
def message : Problem → String
  | unknownReference name => "Metadata file " ++ quoted (name ++ ".dll") ++ " could not be found"
  | duplicateClass namespaceName name =>
    "The namespace " ++ quoted namespaceName ++ " already contains a definition for " ++ quoted name
  | duplicateMethod className name =>
    "Type " ++ quoted className ++ " already defines a member called " ++ quoted name
  | instanceMember method =>
    quoted method ++ ": cannot declare instance members in a static class"
  | duplicateParameter name method =>
    "The parameter name " ++ quoted name ++ " is a duplicate in " ++ quoted method
  | unknownSignatureType type method =>
    "The type or namespace name " ++ quoted type ++ " could not be found (in " ++ quoted method ++
      ")"
  | voidParameter name method =>
    "Invalid parameter type 'void' for " ++ quoted name ++ " in " ++ quoted method
  | defaultNotConstant parameter method =>
    "Default parameter value for " ++ quoted parameter ++ " in " ++ quoted method ++
      " must be a compile-time constant"
  | defaultMismatch found parameter method type =>
    "A value of type " ++ quoted found ++ " cannot be used as a default parameter for " ++
      quoted parameter ++ " in " ++ quoted method ++
      " because there are no standard conversions to type " ++ quoted type.name
  | syntaxError message => message
  | missingReturn method => quoted method ++ ": not all code paths return a value"
  | unknownName name => "The name " ++ quoted name ++ " does not exist in the current context"
  | unknownType name => "The type or namespace name " ++ quoted name ++ " could not be found"
  | voidLocalType => "Keyword 'void' cannot be used in this context"
  | duplicateLocal name =>
    "A local variable named " ++ quoted name ++ " is already defined in this scope"
  | notAssignable => "The left-hand side of an assignment must be a variable"
  | notStatement => "Only assignment and call expressions can be used as a statement"
  | unexpectedResult method =>
    "Since " ++ quoted method ++
      " returns void, a return keyword must not be followed by an object expression"
  | expectedResult type => "An object of a type convertible to " ++ quoted type.name ++ " is required"
  | selfInStatic => "Keyword 'this' is not valid in a static method"
  | noMember owner name => quoted owner ++ " does not contain a definition for " ++ quoted name
  | noMemberOfValue name => "Expression does not contain a definition for " ++ quoted name
  | notCallable => "Method name expected"
  | argumentCount name count =>
    "No overload for method " ++ quoted name ++ " takes " ++ toString count ++ " arguments"
  | inaccessible method => quoted method ++ " is inaccessible due to its protection level"
  | staticOnInstance method =>
    "Member " ++ quoted method ++
      " cannot be accessed with an instance reference; qualify it with a type name instead"
  | noInstance method =>
    "An object reference is required for the non-static field, method, or property " ++
      quoted method

/-- The diagnostic for a problem, perhaps with a place. -/
def toDiagnostic (p : Problem) (location : Option Location) : Diagnostic :=
  ⟨.error, p.code, p.message, location⟩

end Problem

/-- A problem with a stretch of a body. -/
structure Placed where
  /-- What is wrong. -/
  problem : Problem
  /-- Where. -/
  span : Text.Span
  deriving DecidableEq, Repr

end Dossier.Script
