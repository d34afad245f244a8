import Dossier.Assembly
import Dossier.CompileUnit.Render
import Dossier.Script.Binding

/-!
# Compiling and entering

The two steps from a compile unit to a result, over any compiler and any assembly.

* `compile` submits a unit once, with the modules that its namespaces import.  If that fails, the
  failure holds all diagnostics in their order, and the unit as source text if that was asked for.
* `enter` makes an instance of the entry class, finds the entry method among its public ones, and runs
  it if all of its parameters have defaults.  The first step that is not possible is the answer.
-/

set_option autoImplicit false

namespace Dossier

open Script (Value Failure Halt Writer)

/-- The name of an assembly that is given none. -/
def defaultAssemblyName : String := "JsonScriptAssembly"

/-- What to run, and how.  A value of this type has been checked. -/
structure Config where
  /-- The full name of the class to enter. -/
  entryType : String
  /-- The name of the method to enter. -/
  entryMethod : String
  /-- The name of the assembly. -/
  assemblyName : String
  /-- Are only warnings and errors logged? -/
  silent : Bool
  /-- Is the program shown when it cannot be compiled? -/
  visualizeOnError : Bool
  /-- Does the program run without the records that have no place in it? -/
  tolerateOrphans : Bool
  deriving DecidableEq, Repr

/-- The configuration of an entry point, with all else as it is when nothing is said. -/
def Config.ofEntry (entryType entryMethod : String) : Config :=
  ⟨entryType, entryMethod, defaultAssemblyName, false, false, false⟩

/-! ## Compiling -/

/-- What a compiler is given. -/
structure Submission where
  /-- The program. -/
  unit : CompileUnit
  /-- The modules it may use. -/
  references : List String
  /-- The name for the assembly. -/
  assemblyName : String
  deriving DecidableEq, Repr

/-- Makes an assembly, or says why not. -/
abbrev Compiler := Submission → Except (List Diagnostic) Assembly

/-- The compiler of scripts. -/
def scriptCompiler : Compiler := fun s ↦
  (Script.bind s.unit s.references).map (Assembly.ofProgram s.assemblyName)

/-- Why there is no assembly. -/
structure CompileFailure where
  /-- All that the compiler said. -/
  diagnostics : List Diagnostic
  /-- The program as source text, if it is to be shown. -/
  rendering : Option String
  deriving DecidableEq, Repr

/-- The wording of a failed compilation. -/
def CompileFailure.message (f : CompileFailure) : String :=
  "Compilation failed with " ++ toString (Diagnostic.errorCount f.diagnostics) ++ " error(s)"

/-- What is submitted for a unit. -/
def submission (u : CompileUnit) (config : Config) : Submission :=
  ⟨u, u.references, config.assemblyName⟩

/-- Compiles a unit. -/
def compile (compiler : Compiler) (u : CompileUnit) (config : Config) :
    Except CompileFailure Assembly :=
  match compiler (submission u config) with
  | .ok a => .ok a
  | .error diagnostics =>
    .error ⟨diagnostics, if config.visualizeOnError then some u.render else none⟩

/-! ## Entering -/

/-- Why there is no result. -/
inductive EntryError where
  /-- There is no such class. -/
  | typeNotFound (typeName assembly : String)
  /-- The class has no such public method. -/
  | methodNotFound (typeName method : String)
  /-- The method cannot be run without arguments. -/
  | requiredParameters (typeName method : String) (count : Nat)
  /-- The run of the method failed. -/
  | uncaught (f : Failure)
  /-- The run of the method did not come to an end. -/
  | unfinished
  deriving DecidableEq, Repr

/-- The wording of an entry that is not possible or fails. -/
def EntryError.message : EntryError → String
  | typeNotFound typeName assembly =>
    "The entry namespace " ++ Script.quoted typeName ++ " was not found in assembly " ++
      Script.quoted assembly
  | methodNotFound typeName method =>
    "The entry method " ++ Script.quoted method ++ " was not found in " ++ Script.quoted typeName ++
      " (it must exist and be public)"
  | requiredParameters typeName method count =>
    "The entry method " ++ Script.quoted (qualify typeName method) ++
      " must not contain any required arguments (" ++ toString count ++ " required)"
  | uncaught f => "Uncaught runtime failure: " ++ f.text
  | unfinished => "The entry method did not finish"

/-- The error of a run without a result. -/
def EntryError.ofHalt : Halt → EntryError
  | .failure f => uncaught f
  | _ => unfinished

/-- What came of entering an assembly. -/
structure Entered where
  /-- The writer after it. -/
  writer : Writer
  /-- The value, or why there is none. -/
  result : Except EntryError Value

/-- All that has been written, before and by it. -/
def Entered.output (e : Entered) : String := e.writer.output

/-- The method to enter, if it can be. -/
def findEntry (a : Assembly) (config : Config) : Except EntryError Entry :=
  match a.instance? config.entryType with
  | none => .error (.typeNotFound config.entryType a.name)
  | some methods =>
    match methods config.entryMethod with
    | none => .error (.methodNotFound config.entryType config.entryMethod)
    | some m =>
      if 0 < m.required then .error (.requiredParameters config.entryType m.name m.required)
      else .ok m

/-- Enters an assembly. -/
def enter (a : Assembly) (config : Config) (out : Writer) : Entered :=
  match findEntry a config with
  | .error e => ⟨out, .error e⟩
  | .ok m =>
    let o := m.run out
    ⟨o.writer, o.result.mapError EntryError.ofHalt⟩

/-! ## Several runs -/

/-- Something to do with an assembly. -/
inductive Step where
  /-- Enter it. -/
  | enter (config : Config)
  /-- Run a public method of a class, whether its parameters have defaults or not.  The instance that
  it runs on can be one of another class. -/
  | invoke (typeName method : String) (instanceOf : String := typeName)
  deriving DecidableEq, Repr

/-- What came of a step. -/
inductive StepResult where
  | entered (result : Except EntryError Value)
  | noType
  | noMethod
  /-- A method was run; it has this name, and so many of its parameters need an argument. -/
  | invoked (name : String) (required : Nat) (result : Except Halt Value)

namespace Assembly

/-- Does a step; the second result is the writer after it. -/
def step (a : Assembly) (out : Writer) : Step → StepResult × Writer
  | .enter config =>
    let entered := Dossier.enter a config out
    (.entered entered.result, entered.writer)
  | .invoke typeName method instanceOf =>
    match a.instance? instanceOf, a.instance? typeName with
    | some _, some methods =>
      match methods method with
      | none => (.noMethod, out)
      | some m =>
        let o := m.runOn instanceOf out
        (.invoked m.name m.required o.result, o.writer)
    | _, _ => (.noType, out)

/-- Does steps one after the other.  Beside the result of a step there is all that has been written
after it. -/
def steps (a : Assembly) : Writer → List Step → List (StepResult × String)
  | _, [] => []
  | out, s :: rest =>
    let done := a.step out s
    (done.1, done.2.output) :: a.steps done.2 rest

end Assembly

end Dossier
