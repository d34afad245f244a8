import Dossier.Record
import Dossier.Table

/-!
# Putting records in their places

Records name their owners; here the owners are found.  A method belongs to the class whose full name
it gives, and a class to the namespace whose name it gives, letter for letter.

* Owners must be told apart: a namespace or the full name of a class that is declared more than once
  is a conflict, and then nothing is placed.  The full names count, so two classes conflict also when
  their names are cut differently from the same text.
* A record whose owner is not there is an orphan.  The methods of an orphaned class go with it.
* Everything stays in the order in which it was found.

The records are gone through by kind: names are counted first, then the methods are sorted by the
class that they name, and then the classes, with their methods, go to their namespaces.
-/

set_option autoImplicit false

namespace Dossier

/-! ## Conflicts -/

/-- A name that is declared more than once. -/
inductive Conflict where
  | ofNamespace (name : String) (count : Nat)
  | ofClass (fullName : String) (count : Nat)
  deriving DecidableEq, Repr

namespace Conflict

/-- The wording of a conflict. -/
def message : Conflict → String
  | ofNamespace name count =>
    "namespace '" ++ name ++ "' is declared " ++ toString count ++ " times"
  | ofClass fullName count =>
    "class '" ++ fullName ++ "' is declared " ++ toString count ++ " times"

/-- The wording of all conflicts. -/
def messageOf (conflicts : List Conflict) : String :=
  "Configuration conflict: " ++ "; ".intercalate (conflicts.map message)

end Conflict

/-- How often each name occurs. -/
def tally (names : List String) : Table String Nat :=
  names.foldl (fun t name ↦ t.alter name fun n ↦ n.getD 0 + 1) .empty

/-- Where the elements with some key stand in a list. -/
structure Positions where
  /-- The place of the first. -/
  first : Nat
  /-- The places of the others. -/
  later : List Nat
  deriving DecidableEq, Repr

namespace Positions

/-- One more place. -/
def add (i : Nat) : Option Positions → Positions
  | none => ⟨i, []⟩
  | some p => { p with later := p.later ++ [i] }

/-- The number of places. -/
def count (p : Positions) : Nat := p.later.length + 1

end Positions

namespace Store

/-- Where the classes stand, by their full names. -/
def classIndex (s : Store) : Table String Positions :=
  s.classes.zipIdx.foldl (fun t (c, i) ↦ t.alter c.fullName (Positions.add i)) .empty

/-- The conflicts among records: namespaces first, then classes. -/
def conflicts (s : Store) : List Conflict :=
  ((tally (s.namespaces.map NamespaceRecord.name)).entries.filter fun e ↦ 1 < e.2).map
      (fun e ↦ .ofNamespace e.1 e.2) ++
    (s.classIndex.entries.filter fun e ↦ 1 < e.2.count).map fun e ↦ .ofClass e.1 e.2.count

end Store

/-! ## Places -/

/-- A class with the methods that name it. -/
structure PlacedClass where
  /-- The record of the class. -/
  record : ClassRecord
  /-- Its methods. -/
  methods : List MethodRecord
  deriving DecidableEq, Repr

/-- A namespace with the classes that name it. -/
structure PlacedNamespace where
  /-- The record of the namespace. -/
  record : NamespaceRecord
  /-- Its classes. -/
  classes : List PlacedClass
  deriving DecidableEq, Repr

/-- A record whose owner is not there. -/
inductive Orphan where
  | ofMethod (record : MethodRecord)
  /-- A class; `methods` tells how many methods go with it. -/
  | ofClass (record : ClassRecord) (methods : Nat)
  deriving DecidableEq, Repr

/-- The wording of an orphan. -/
def Orphan.message : Orphan → String
  | .ofMethod r =>
    "method '" ++ r.name ++ "' names class '" ++ r.owner ++ "', which does not exist"
  | .ofClass r methods =>
    let dropped :=
      if methods = 0 then ""
      else " (" ++ toString methods ++ " method" ++ (if methods = 1 then "" else "s") ++ " dropped)"
    "class '" ++ r.name ++ "' names namespace '" ++ r.owner ++ "', which does not exist" ++ dropped

/-- Records in their places. -/
structure Placement where
  /-- The namespaces. -/
  namespaces : List PlacedNamespace
  /-- The records that have no place, methods before classes. -/
  orphans : List Orphan
  deriving DecidableEq, Repr

namespace Placement

/-- The classes of all namespaces. -/
def classes (p : Placement) : List PlacedClass := p.namespaces.flatMap PlacedNamespace.classes

/-- The number of methods that have a place. -/
def methodCount (p : Placement) : Nat := (p.classes.flatMap PlacedClass.methods).length

/-- The class of a namespace that has a name. -/
def findClass? (p : Placement) (namespaceName className : String) : Option PlacedClass := do
  let ns ← p.namespaces.find? fun ns ↦ ns.record.name == namespaceName
  ns.classes.find? fun c ↦ c.record.name == className

/-- The number of methods among the orphans. -/
def orphanedMethods (p : Placement) : Nat :=
  p.orphans.countP fun | .ofMethod _ => true | .ofClass _ _ => false

/-- The number of classes among the orphans. -/
def orphanedClasses (p : Placement) : Nat :=
  p.orphans.countP fun | .ofMethod _ => false | .ofClass _ _ => true

end Placement

/-! ## Methods to classes -/

/-- Methods, sorted by class. -/
structure Sorted where
  /-- The methods of each class, in the order of the classes. -/
  byClass : List (List MethodRecord)
  /-- The methods whose class is not there. -/
  orphans : List Orphan

/-- Puts a method with the others of its class. -/
def Sorted.add (index : Table String Positions) (sorted : Sorted) (m : MethodRecord) : Sorted :=
  match index.find? m.owner with
  | some places => { sorted with byClass := sorted.byClass.modify places.first (· ++ [m]) }
  | none => { sorted with orphans := sorted.orphans ++ [.ofMethod m] }

/-- The methods, sorted by the class that they name. -/
def Store.sortMethods (s : Store) : Sorted :=
  s.methods.foldl (Sorted.add s.classIndex) ⟨List.replicate s.classes.length [], []⟩

/-! ## Classes to namespaces -/

/-- A namespace that classes are put into, under their own names. -/
structure OpenNamespace where
  /-- The record of the namespace. -/
  record : NamespaceRecord
  /-- The classes that it has got. -/
  classes : Table String PlacedClass

namespace OpenNamespace

/-- The namespace with one more class. -/
def add (ns : OpenNamespace) (c : PlacedClass) : OpenNamespace :=
  { ns with classes := ns.classes.insert c.record.name c }

/-- The namespace with all that was put into it. -/
def close (ns : OpenNamespace) : PlacedNamespace := ⟨ns.record, ns.classes.values⟩

end OpenNamespace

/-- Namespaces by name, and what could not be put into them. -/
structure Filling where
  /-- The namespaces. -/
  namespaces : Table String OpenNamespace
  /-- The records that have no place. -/
  orphans : List Orphan

/-- Puts a class into its namespace. -/
def Filling.add (f : Filling) (c : PlacedClass) : Filling :=
  match f.namespaces.find? c.record.owner with
  | some ns => { f with namespaces := f.namespaces.insert c.record.owner (ns.add c) }
  | none => { f with orphans := f.orphans ++ [.ofClass c.record c.methods.length] }

namespace Store

/-- The namespaces, without classes. -/
def openNamespaces (s : Store) : Table String OpenNamespace :=
  s.namespaces.foldl (fun t ns ↦ t.insert ns.name ⟨ns, .empty⟩) .empty

/-- The namespaces with their classes and these with their methods. -/
def fill (s : Store) : Filling :=
  let sorted := s.sortMethods
  (List.zipWith PlacedClass.mk s.classes sorted.byClass).foldl Filling.add
    ⟨s.openNamespaces, sorted.orphans⟩

/-- Puts all records in their places. -/
def place (s : Store) : Except (List Conflict) Placement :=
  match s.conflicts with
  | [] => .ok ⟨s.fill.namespaces.values.map OpenNamespace.close, s.fill.orphans⟩
  | conflicts => .error conflicts

end Store

end Dossier
