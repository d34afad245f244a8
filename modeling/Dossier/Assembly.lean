import Dossier.Script.Run

/-!
# Assemblies

A compiled program as the outside sees it: it has a name, it makes instances of its classes, and an
instance offers its public methods to be run without arguments, on it or on another instance.  All runs
write to one writer, one after the other; nothing else is kept from one run to the next.

`Assembly.ofProgram` offers a bound program in this way.
-/

set_option autoImplicit false

namespace Dossier

open Script (Value Failure Halt Writer)

/-- What came of running a method. -/
structure Outcome where
  /-- The writer after the run. -/
  writer : Writer
  /-- The value, or why there is none. -/
  result : Except Halt Value

/-- All that has been written, before the run and by it. -/
def Outcome.output (o : Outcome) : String := o.writer.output

/-- A method that can be run without arguments. -/
structure Entry where
  /-- Its name. -/
  name : String
  /-- The number of parameters that need an argument. -/
  required : Nat
  /-- Runs it on the instance that it was asked of. -/
  run : Writer → Outcome
  /-- Runs it on an instance of the class with a full name. -/
  runOn : (typeName : String) → Writer → Outcome := fun _ ↦ run

/-- A compiled program. -/
structure Assembly where
  /-- Its name. -/
  name : String
  /-- The public methods of an instance of the class with a full name, if there is the class. -/
  instance? : String → Option (String → Option Entry)

namespace Assembly

/-- What comes of a run with a writer. -/
def outcome (run : Script.Run Value) (out : Writer) : Outcome :=
  match run ⟨out, 0⟩ with
  | .ok v w => ⟨w.toWriter, .ok v⟩
  | .error halt w => ⟨w.toWriter, .error halt⟩

/-- Calls a method of a program on an instance. -/
def call (p : Script.BoundProgram) (classIndex methodIndex : Nat) (self : Value)
    (args : List Value) (out : Writer) : Outcome :=
  outcome (Script.callMethod Script.ampleFuel p classIndex methodIndex self args) out

/-- The public method of a name in the class at a position. -/
def entry? (p : Script.BoundProgram) (classIndex : Nat) (name : String) : Option Entry := do
  let c ← p.classes[classIndex]?
  let methodIndex ← c.findMethod? name
  let m ← c.methods[methodIndex]?
  if m.isPublic then
    some {
      name := m.name
      required := m.required
      run := call p classIndex methodIndex (.object c.fullName) []
      runOn := fun typeName ↦ call p classIndex methodIndex (.object typeName) [] }
  else none

/-- A bound program under a name. -/
def ofProgram (name : String) (p : Script.BoundProgram) : Assembly where
  name := name
  instance? typeName := (p.findClass? typeName).map fun classIndex ↦ entry? p classIndex

end Assembly

end Dossier
