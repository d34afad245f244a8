import Dossier.Proofs.Binding.Located
import Dossier.Proofs.CompileUnit.OfRecords
import Dossier.Proofs.Placement.Passes

/-!
# Which body is quoted

A diagnostic knows its method by three names, and what is quoted is found by these names alone.

* `FirstNamed` is the first element of a list that has its name, and a method stands in front
  (`CompileUnit.InFront`) if it is the first match at each of the three steps.
* `CompileUnit.body?_eq_some_iff` says what the names lead to: the body of the one method with these
  names that stands in front.
* Where no two namespaces have one name, and no two classes of a namespace, as in units that are
  made of records, only the methods of the class itself count
  (`CompileUnit.Tells.body?_eq_some_iff`).
* `quoted_exactly` is the result for the diagnostics of whole units.
-/

set_option autoImplicit false

namespace Dossier

/-! ## The first of a name -/

section FirstNamed

variable {α : Type} {name : α → String} {a b : α} {as : List α}

/-- The element is the first of the list that has its name. -/
def FirstNamed (name : α → String) (a : α) (as : List α) : Prop :=
  ∃ before after, as = before ++ a :: after ∧ ∀ b ∈ before, name b ≠ name a

/-- What is found by a name is the first element that has it. -/
theorem find?_name_eq_some_iff {w : String} :
    (as.find? fun a ↦ name a == w) = some a ↔ FirstNamed name a as ∧ name a = w := by
  rw [List.find?_eq_some_iff_append]
  constructor
  · rintro ⟨hname, before, after, has, hbefore⟩
    obtain rfl := eq_of_beq hname
    exact ⟨⟨before, after, has, by simpa using hbefore⟩, rfl⟩
  · rintro ⟨⟨before, after, has, hbefore⟩, rfl⟩
    exact ⟨beq_self_eq_true _, before, after, has, by simpa using hbefore⟩

namespace FirstNamed

theorem mem (h : FirstNamed name a as) : a ∈ as := by
  obtain ⟨before, after, rfl, -⟩ := h
  exact List.mem_append_right _ (List.mem_cons_self ..)

/-- There is one first element of each name. -/
theorem unique (ha : FirstNamed name a as) (hb : FirstNamed name b as) (h : name a = name b) :
    a = b := by
  have hfind := find?_name_eq_some_iff.2 ⟨ha, rfl⟩
  rw [h, find?_name_eq_some_iff.2 ⟨hb, rfl⟩] at hfind
  exact (Option.some.inj hfind).symm

/-- Where all names are different, every element is the first of its name. -/
theorem of_nodup (h : (as.map name).Nodup) (ha : a ∈ as) : FirstNamed name a as := by
  obtain ⟨before, after, rfl⟩ := List.append_of_mem ha
  rw [List.map_append, List.nodup_append'] at h
  refine ⟨before, after, rfl, fun b hb heq ↦ ?_⟩
  exact h.2.2 (List.mem_map_of_mem hb) (heq ▸ List.mem_cons_self ..)

/-- Some element is the first with the name of one that is there. -/
theorem exists_of_mem (ha : a ∈ as) : ∃ b, FirstNamed name b as ∧ name b = name a := by
  have hsome : (as.find? fun b ↦ name b == name a).isSome = true :=
    List.find?_isSome.2 ⟨a, ha, beq_self_eq_true _⟩
  obtain ⟨b, hb⟩ := Option.isSome_iff_exists.1 hsome
  exact ⟨b, find?_name_eq_some_iff.1 hb⟩

end FirstNamed

end FirstNamed

/-! ## The body of a name -/

namespace CompileUnit

variable {u : CompileUnit} {ns : Namespace} {c : Class} {m : Method}

/-- The method is the first of its name in its class, and so are the class in its namespace and the
namespace in the unit. -/
structure InFront (u : CompileUnit) (ns : Namespace) (c : Class) (m : Method) : Prop where
  inUnit : FirstNamed Namespace.name ns u.namespaces
  inNamespace : FirstNamed Class.name c ns.classes
  inClass : FirstNamed Method.name m c.methods

/-- The owners of the methods can be told apart by their names. -/
structure Tells (u : CompileUnit) : Prop where
  /-- No two namespaces have one name. -/
  namespaces : (u.namespaces.map Namespace.name).Nodup
  /-- No two classes of a namespace have one name. -/
  classes : ∀ ns ∈ u.namespaces, (ns.classes.map Class.name).Nodup

/-- **What three names lead to**: the body of the method with these names that stands in front. -/
theorem body?_eq_some_iff {namespaceName className methodName body : String} :
    u.body? namespaceName className methodName = some body ↔
      ∃ ns c m, u.InFront ns c m ∧ ns.name = namespaceName ∧ c.name = className ∧
        m.name = methodName ∧ m.body = body := by
  simp only [body?, Option.bind_eq_bind, Option.bind_eq_some_iff, find?_name_eq_some_iff,
    Option.some.injEq]
  constructor
  · rintro ⟨ns, ⟨hns, hnsName⟩, c, ⟨hc, hcName⟩, m, ⟨hm, hmName⟩, hbody⟩
    exact ⟨ns, c, m, ⟨hns, hc, hm⟩, hnsName, hcName, hmName, hbody⟩
  · rintro ⟨ns, c, m, ⟨hns, hc, hm⟩, hnsName, hcName, hmName, hbody⟩
    exact ⟨ns, ⟨hns, hnsName⟩, c, ⟨hc, hcName⟩, m, ⟨hm, hmName⟩, hbody⟩

namespace Tells

/-- Where owners can be told apart, the names of a method lead to the first of its name in its own
class. -/
theorem body?_eq_some_iff (h : u.Tells) (hns : ns ∈ u.namespaces) (hc : c ∈ ns.classes)
    {methodName body : String} : u.body? ns.name c.name methodName = some body ↔
      ∃ m, FirstNamed Method.name m c.methods ∧ m.name = methodName ∧ m.body = body := by
  have hnsFirst : FirstNamed Namespace.name ns u.namespaces := .of_nodup h.namespaces hns
  have hcFirst : FirstNamed Class.name c ns.classes := .of_nodup (h.classes ns hns) hc
  rw [CompileUnit.body?_eq_some_iff]
  constructor
  · rintro ⟨ns', c', m, hfront, hnsName, hcName, hmName, hbody⟩
    obtain rfl := hfront.inUnit.unique hnsFirst hnsName
    obtain rfl := hfront.inNamespace.unique hcFirst hcName
    exact ⟨m, hfront.inClass, hmName, hbody⟩
  · rintro ⟨m, hm, hmName, hbody⟩
    exact ⟨ns, c, m, ⟨hnsFirst, hcFirst, hm⟩, rfl, rfl, hmName, hbody⟩

end Tells

/-! ## Units that are made of records -/

theorem map_eq_of_forall₂ {α β γ : Type} {R : α → β → Prop} {f : α → γ} {g : β → γ} {as : List α}
    {bs : List β} (h : List.Forall₂ R as bs) (hR : ∀ a b, R a b → f a = g b) :
    as.map f = bs.map g := by
  rw [← List.forall₂_eq_eq_eq, List.forall₂_map_left_iff, List.forall₂_map_right_iff]
  exact h.imp hR

/-- **Placing tells owners apart**: the owners of a unit that is made of records have different
names. -/
theorem tells_of_place {s : Store} {p : Placement} (hp : s.place = .ok p)
    (hu : ofPlacement p = .ok u) : u.Tells := by
  obtain ⟨hdistinct, rfl⟩ := Store.place_eq_ok_iff.1 hp
  have hcopies := (copies_of_ofPlacement hu).2.namespaces
  rw [Store.placed, List.forall₂_map_right_iff] at hcopies
  constructor
  · rw [map_eq_of_forall₂ hcopies fun _ _ h ↦ h.name]
    exact hdistinct.namespaces
  · intro ns hns
    obtain ⟨r, hr⟩ := exists_of_forall₂ hcopies hns
    have hclasses := hr.classes
    rw [List.forall₂_map_right_iff] at hclasses
    rw [map_eq_of_forall₂ hclasses fun _ _ h ↦ h.name]
    exact Store.nodup_name_classesOf hdistinct r

end CompileUnit

namespace Script

/-! ## Diagnostics -/

/-- The diagnostic is one of the body of a method that the unit declares. -/
structure ComesFrom (d : Diagnostic) (u : CompileUnit) (ns : Namespace) (c : Class) (m : Method) :
    Prop where
  inUnit : ns ∈ u.namespaces
  inNamespace : c ∈ ns.classes
  inClass : m ∈ c.methods
  notes : ∃ classIndex, u.classes[classIndex]? = some (ns, c) ∧ d ∈ bodyNotes u classIndex (ns, c) m

namespace ComesFrom

variable {d : Diagnostic} {u : CompileUnit} {ns : Namespace} {c : Class} {m : Method} {l : Location}

theorem pointsInto (h : ComesFrom d u ns c m) (hl : d.location = some l) :
    l.PointsInto ns c m := by
  obtain ⟨classIndex, -, hd⟩ := h.notes
  exact pointsInto_of_mem_bodyNotes hd hl

/-- What is quoted is looked up with the names of the method. -/
theorem quotedBody?_eq (h : ComesFrom d u ns c m) (hl : d.location = some l) :
    u.quotedBody? d = u.body? ns.name c.name m.name := by
  have hpoints := h.pointsInto hl
  rw [CompileUnit.quotedBody?, hl, Option.bind_some, hpoints.namespaceName, hpoints.className,
    hpoints.methodName]

end ComesFrom

/-- A diagnostic with a location comes from a method. -/
theorem exists_comesFrom {u : CompileUnit} {references : List String} {ds : List Diagnostic}
    (hbind : bind u references = .error ds) {d : Diagnostic} (hd : d ∈ ds) {l : Location}
    (hl : d.location = some l) : ∃ ns c m, ComesFrom d u ns c m := by
  have hds : ds = diagnosticsOf u references := by
    rw [bind] at hbind
    split at hbind
    · cases hbind
    · cases hbind
      exact notes_bindAll u references
  obtain ⟨classIndex, ns, c, m, hc, hm, hnotes⟩ := exists_mem_bodyNotes (hds ▸ hd) hl
  obtain ⟨ns', hns, hmem⟩ := List.mem_flatMap.1 (List.mem_of_getElem? hc)
  obtain ⟨c', hc', heq⟩ := List.mem_map.1 hmem
  cases heq
  exact ⟨ns, c, m, hns, hc', hm, classIndex, hc, hnotes⟩

/-- **What is quoted, exactly.**  A diagnostic of a unit that cannot be bound, if it has a location,
comes from the body of a method of the unit.  Whichever method this is, its body is one whose
stretch the location means, and a body is quoted exactly if it is that of the method with the same
three names that stands in front.  So the right text is quoted exactly if that method has the same
body; this is so for each method that stands in front itself.  In a unit that is made of records, a
body is always quoted, and only an earlier method of the same name in the same class can be quoted
in place of the method. -/
theorem quoted_exactly {u : CompileUnit} {references : List String} {ds : List Diagnostic}
    (hbind : bind u references = .error ds) {d : Diagnostic} (hd : d ∈ ds) {l : Location}
    (hl : d.location = some l) :
    (∃ ns c m, ComesFrom d u ns c m) ∧
      ∀ ns c m, ComesFrom d u ns c m →
        (∃ before stretch behind, d.Shows l m.body before stretch behind) ∧
        (∀ body, u.quotedBody? d = some body ↔ ∃ ns' c' m', u.InFront ns' c' m' ∧
          ns'.name = ns.name ∧ c'.name = c.name ∧ m'.name = m.name ∧ m'.body = body) ∧
        (u.InFront ns c m → u.quotedBody? d = some m.body) ∧
        ∀ s p, Store.place s = .ok p → CompileUnit.ofPlacement p = .ok u →
          ∃ m', FirstNamed Method.name m' c.methods ∧ m'.name = m.name ∧
            u.quotedBody? d = some m'.body := by
  refine ⟨exists_comesFrom hbind hd hl, fun ns c m h ↦ ?_⟩
  rw [h.quotedBody?_eq hl]
  refine ⟨(h.pointsInto hl).exists_shows d, fun body ↦ CompileUnit.body?_eq_some_iff,
    fun hfront ↦ ?_, fun s p hp hu ↦ ?_⟩
  · exact CompileUnit.body?_eq_some_iff.2 ⟨ns, c, m, hfront, rfl, rfl, rfl, rfl⟩
  · obtain ⟨m', hfirst, hname⟩ := FirstNamed.exists_of_mem h.inClass
    refine ⟨m', hfirst, hname, ?_⟩
    exact ((CompileUnit.tells_of_place hp hu).body?_eq_some_iff h.inUnit h.inNamespace).2
      ⟨m', hfirst, hname, rfl⟩

/-- A method that calls another one that is not there. -/
def callingMethod (name callee : String) : Method :=
  ⟨name, .everyone, true, "void", [], callee ++ "();"⟩

/-- What is said of the call. -/
def callDiagnostic (name callee : String) : Diagnostic :=
  (Problem.unknownName callee).toDiagnostic
    (some ⟨"Acme", "Widget", name, ⟨0, callee.utf8ByteSize⟩, ⟨1, 1⟩⟩)

/-- A class with two methods of one name. -/
def twinClass : Class :=
  ⟨"Widget", .everyone, true, [callingMethod "Load" "first", callingMethod "Load" "second"]⟩

/-- Another class with the name of this class. -/
def otherClass : Class := ⟨"Widget", .everyone, true, [callingMethod "Run" "third"]⟩

/-- The namespace of both. -/
def twinNamespace : Namespace := ⟨"Acme", [], [twinClass, otherClass]⟩

/-- What is said of the unit: two names are taken, and no call leads anywhere. -/
def twinDiagnostics : List Diagnostic :=
  [(Problem.duplicateMethod "Acme.Widget" "Load").toDiagnostic none,
    (Problem.duplicateClass "Acme" "Widget").toDiagnostic none,
    callDiagnostic "Load" "first", callDiagnostic "Load" "second", callDiagnostic "Run" "third"]

/-- A unit with this namespace. -/
def twinUnit : CompileUnit := ⟨[twinNamespace]⟩

theorem bind_twin : bind twinUnit [] = .error twinDiagnostics := by
  have hnotes : (bindAll twinUnit []).notes = twinDiagnostics := by decide +kernel
  rw [bind, hnotes]
  rfl

/-- The first method of a name is quoted. -/
theorem twin_quotes_first :
    twinUnit.quotedBody? (callDiagnostic "Load" "first") = some "first();" := by
  have hd : callDiagnostic "Load" "first" ∈ twinDiagnostics := by decide +kernel
  have h := (quoted_exactly bind_twin hd rfl).2 twinNamespace twinClass
    (callingMethod "Load" "first")
    ⟨List.mem_singleton_self _, List.mem_cons_self .., List.mem_cons_self .., 0, rfl,
      by decide +kernel⟩
  exact h.2.2.1 ⟨⟨[], [], rfl, nofun⟩, ⟨[], _, rfl, nofun⟩, ⟨[], _, rfl, nofun⟩⟩

/-- The second is not: the body of the first is quoted in its place.  For a method of a class whose
name has been taken nothing is quoted. -/
theorem twin_misquotes : bind twinUnit [] = .error twinDiagnostics ∧
    (callDiagnostic "Load" "second" ∈ twinDiagnostics ∧
      ComesFrom (callDiagnostic "Load" "second") twinUnit twinNamespace twinClass
        (callingMethod "Load" "second") ∧
      twinUnit.quotedBody? (callDiagnostic "Load" "second") =
        some (callingMethod "Load" "first").body) ∧
    callDiagnostic "Run" "third" ∈ twinDiagnostics ∧
      ComesFrom (callDiagnostic "Run" "third") twinUnit twinNamespace otherClass
        (callingMethod "Run" "third") ∧
      twinUnit.quotedBody? (callDiagnostic "Run" "third") = none := by
  refine ⟨bind_twin, ⟨by decide +kernel, ?_, by decide +kernel⟩, by decide +kernel, ?_,
    by decide +kernel⟩
  · exact ⟨List.mem_singleton_self _, List.mem_cons_self .., by decide +kernel, 0, rfl,
      by decide +kernel⟩
  · exact ⟨List.mem_singleton_self _, by decide +kernel, List.mem_singleton_self _, 1, rfl,
      by decide +kernel⟩

end Script

end Dossier
