import Dossier.Text.Line

/-!
# Compile units

A program as it is handed to a compiler: namespaces with what they import and their classes, classes
with their methods, and methods with a signature and a body.  Nothing in it has been checked.  Types
and default values are source text, and so are the bodies.
-/

set_option autoImplicit false

namespace Dossier

/-- Who may use a declaration. -/
inductive Visibility where
  | everyone
  | owner
  | heirs
  | assembly
  /-- No modifier was given. -/
  | unstated
  deriving DecidableEq, Repr, Inhabited

/-- The modifier that is written for a visibility. -/
def Visibility.keyword? : Visibility → Option String
  | everyone => some "public"
  | owner => some "private"
  | heirs => some "protected"
  | assembly => some "internal"
  | unstated => none

/-- A parameter of a method. -/
structure Parameter where
  /-- Its type. -/
  type : String
  /-- Its name. -/
  name : String
  /-- The text of the value that stands in for a missing argument. -/
  default? : Option String
  deriving DecidableEq, Repr, Inhabited

/-- A method. -/
structure Method where
  /-- Its name. -/
  name : String
  /-- Who may call it. -/
  visibility : Visibility
  /-- Does it do without an instance? -/
  isStatic : Bool
  /-- The type of its result. -/
  returns : String
  /-- Its parameters. -/
  params : List Parameter
  /-- What it does. -/
  body : String
  deriving DecidableEq, Repr, Inhabited

/-- A class. -/
structure Class where
  /-- Its name. -/
  name : String
  /-- Who may use it. -/
  visibility : Visibility
  /-- Does it do without instances? -/
  isStatic : Bool
  /-- Its methods. -/
  methods : List Method
  deriving DecidableEq, Repr, Inhabited

/-- A namespace. -/
structure Namespace where
  /-- Its name, which may have points in it. -/
  name : String
  /-- The modules whose classes it can use by their own name. -/
  imports : List String
  /-- Its classes. -/
  classes : List Class
  deriving DecidableEq, Repr, Inhabited

/-- A program before it is compiled. -/
structure CompileUnit where
  /-- Its namespaces. -/
  namespaces : List Namespace
  deriving DecidableEq, Repr, Inhabited

/-- The first occurrence of every element, in order. -/
def firstSeen {α : Type} [BEq α] (xs : List α) : List α :=
  xs.foldl (fun seen x ↦ if seen.contains x then seen else seen ++ [x]) []

/-- Two names with a point between them. -/
def qualify (owner name : String) : String := owner ++ "." ++ name

/-- The number of parameters that need an argument. -/
def Method.required (m : Method) : Nat := m.params.countP fun p ↦ p.default?.isNone

namespace CompileUnit

/-- All classes, with their namespaces. -/
def classes (u : CompileUnit) : List (Namespace × Class) :=
  u.namespaces.flatMap fun ns ↦ ns.classes.map fun c ↦ (ns, c)

/-- The number of methods. -/
def methodCount (u : CompileUnit) : Nat := (u.classes.flatMap fun c ↦ c.2.methods).length

/-- The modules that any namespace imports, in the order in which they are first named. -/
def references (u : CompileUnit) : List String := firstSeen (u.namespaces.flatMap Namespace.imports)

/-- The ways to cut a text in two at a point. -/
def cuts : List Char → List (List Char × List Char)
  | [] => []
  | c :: cs =>
    let later := (cuts cs).map fun (owner, name) ↦ (c :: owner, name)
    if c = '.' then ([], cs) :: later else later

/-- The class with a full name.  Names may have points in them, so the name is cut at each of its
points, from the first on, until a cut gives a namespace and one of its classes. -/
def findClass? (u : CompileUnit) (fullName : String) : Option (Namespace × Class) :=
  (cuts fullName.toList).findSome? fun (owner, name) ↦ do
    let ns ← u.namespaces.find? fun ns ↦ ns.name == String.ofList owner
    let c ← ns.classes.find? fun c ↦ c.name == String.ofList name
    some (ns, c)

/-- The body of the method that the three names lead to, taking the first match at each step. -/
def body? (u : CompileUnit) (namespaceName className methodName : String) : Option String := do
  let ns ← u.namespaces.find? fun ns ↦ ns.name == namespaceName
  let c ← ns.classes.find? fun c ↦ c.name == className
  let m ← c.methods.find? fun m ↦ m.name == methodName
  some m.body

end CompileUnit

end Dossier
