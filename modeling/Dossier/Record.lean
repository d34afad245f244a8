import Dossier.CompileUnit

/-!
# Records

A program is described by flat records of three kinds, one for each method, class and namespace.  A
record names its owner and is not part of it: a method names its class with the namespace in front,
and a class names its namespace.  Whether the owner is there is not asked here.
-/

set_option autoImplicit false

namespace Dossier

/-- The word of a record for a visibility. -/
def Visibility.word (v : Visibility) : String := v.keyword?.getD "none"

/-- All visibilities. -/
def Visibility.all : List Visibility := [.everyone, .owner, .heirs, .assembly, .unstated]

/-- The visibility that a word means; capitals do not matter. -/
def Visibility.ofWord? (s : String) : Option Visibility :=
  Visibility.all.find? fun v ↦ v.word == s.map Char.toLower

theorem Visibility.ofWord?_word (v : Visibility) : Visibility.ofWord? v.word = some v := by
  cases v <;> decide +kernel

/-- The wording of a word that means no visibility. -/
def Visibility.unknownWord (s : String) : String :=
  "invalid access modifier '" ++ s ++
    "', expected one of public, private, protected, internal, none"

/-- The type of the result of a method that states none. -/
def defaultReturns : String := "System.Void"

/-- The record of a method. -/
structure MethodRecord where
  /-- The name of the method. -/
  name : String
  /-- Its class, with the namespace in front. -/
  owner : String
  /-- Who may call it. -/
  access : Visibility := .unstated
  /-- Does it do without an instance? -/
  isStatic : Bool := false
  /-- The type of its result. -/
  returns : String := defaultReturns
  /-- The types of its parameters. -/
  paramTypes : List String := []
  /-- Their names. -/
  paramNames : List String := []
  /-- The texts of their defaults; an empty list if none has one. -/
  paramDefaults : List (Option String) := []
  /-- The body. -/
  code : String := ""
  deriving DecidableEq, Repr

/-- The record of a class. -/
structure ClassRecord where
  /-- The name of the class. -/
  name : String
  /-- Its namespace. -/
  owner : String
  /-- Who may use it. -/
  access : Visibility := .unstated
  /-- Does it do without instances? -/
  isStatic : Bool := false
  /-- The modules that it imports. -/
  imports : List String := []
  deriving DecidableEq, Repr

/-- The record of a namespace. -/
structure NamespaceRecord where
  /-- The name of the namespace. -/
  name : String
  /-- The modules that it imports. -/
  imports : List String := []
  deriving DecidableEq, Repr

/-- The name of a method with those of its class and namespace in front. -/
def MethodRecord.qualifiedName (r : MethodRecord) : String := qualify r.owner r.name

/-- The name of a class with that of its namespace in front: what methods name their class by. -/
def ClassRecord.fullName (r : ClassRecord) : String := qualify r.owner r.name

/-- The kinds of records. -/
inductive RecordKind where
  | ofMethod
  | ofClass
  | ofNamespace
  deriving DecidableEq, Repr

namespace RecordKind

/-- The word for a kind. -/
def word : RecordKind → String
  | ofMethod => "method"
  | ofClass => "class"
  | ofNamespace => "namespace"

/-- The kinds, in the order in which their words are looked for. -/
def all : List RecordKind := [ofMethod, ofClass, ofNamespace]

/-- The kind of the record in a file: that whose word is part of the file's name, in small letters
or capitals.  No letter outside of `a` to `z` has a small form that is part of such a word. -/
def ofFileName? (name : String) : Option RecordKind :=
  all.find? fun kind ↦ Text.hasInfix kind.word.toList (name.toList.map Char.toLower)

end RecordKind

/-! ## Collections -/

/-- The records of a program, each kind in the order in which it was found. -/
structure Store where
  /-- The methods. -/
  methods : List MethodRecord
  /-- The classes. -/
  classes : List ClassRecord
  /-- The namespaces. -/
  namespaces : List NamespaceRecord
  deriving DecidableEq, Repr, Inhabited

namespace Store

/-- No records. -/
def empty : Store := ⟨[], [], []⟩

/-- Are there no records? -/
def isEmpty (s : Store) : Bool := s.methods.isEmpty && s.classes.isEmpty && s.namespaces.isEmpty

/-- Adds the record of a method after the others. -/
def addMethod (s : Store) (r : MethodRecord) : Store := { s with methods := s.methods ++ [r] }

/-- Adds the record of a class after the others. -/
def addClass (s : Store) (r : ClassRecord) : Store := { s with classes := s.classes ++ [r] }

/-- Adds the record of a namespace after the others. -/
def addNamespace (s : Store) (r : NamespaceRecord) : Store :=
  { s with namespaces := s.namespaces ++ [r] }

/-- A line on how many of something were found. -/
def foundLine (count : Nat) (one many : String) : String :=
  "Found " ++ toString count ++ " " ++ (if count = 1 then one else many) ++ "."

/-- A line for each kind. -/
def summary (s : Store) : List String :=
  [foundLine s.classes.length "class" "classes", foundLine s.methods.length "method" "methods",
    foundLine s.namespaces.length "namespace" "namespaces"]

end Store

end Dossier
