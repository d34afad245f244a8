import Dossier.Proofs.CompileUnit.FirstSeen
import Dossier.Proofs.CompileUnit.Signature

/-!
# Compile units are what the records say

A compile unit is made of placed records exactly if no signature is malformed; if some are, each gives
one conflict.  `CompileUnit.ofPlacement_exact` is the main statement.

What a unit takes over from the records is said level by level, from `Method.Copies` to
`CompileUnit.Copies`.  Nothing is changed on the way; only the imports are brought together, each
module once.
-/

set_option autoImplicit false

namespace Dossier

/-- Behind a parameter of the method that has a default, all have one. -/
def Method.DefaultsTrail (m : Method) : Prop :=
  m.params.Pairwise fun q r ↦ q.default?.isSome → r.default?.isSome

/-- The defaults of every method trail. -/
def CompileUnit.DefaultsTrail (u : CompileUnit) : Prop :=
  ∀ c ∈ u.classes, ∀ m ∈ c.2.methods, m.DefaultsTrail

/-! ## What is taken over -/

/-- The methods of all classes that have a place. -/
def Placement.methods (p : Placement) : List MethodRecord := p.classes.flatMap PlacedClass.methods

/-- The modules that a namespace and its classes name. -/
def PlacedNamespace.allImports (ns : PlacedNamespace) : List String :=
  ns.record.imports ++ ns.classes.flatMap fun c ↦ c.record.imports

/-- The method is what its record says. -/
structure Method.Copies (m : Method) (r : MethodRecord) : Prop where
  name : m.name = r.name
  visibility : m.visibility = r.access
  isStatic : m.isStatic = r.isStatic
  returns : m.returns = r.returns
  body : m.body = r.code
  types : m.params.map Parameter.type = r.paramTypes
  names : m.params.map Parameter.name = r.paramNames
  defaults : ∀ i p, m.params[i]? = some p → p.default? = r.defaultAt? i
  trail : m.DefaultsTrail

/-- The class is what its record says, with the methods that were placed in it. -/
structure Class.Copies (c : Class) (placed : PlacedClass) : Prop where
  name : c.name = placed.record.name
  visibility : c.visibility = placed.record.access
  isStatic : c.isStatic = placed.record.isStatic
  methods : List.Forall₂ Method.Copies c.methods placed.methods

/-- The namespace is what its record says, with the classes that were placed in it. -/
structure Namespace.Copies (ns : Namespace) (placed : PlacedNamespace) : Prop where
  name : ns.name = placed.record.name
  imports : IsFirstSeen placed.allImports ns.imports
  classes : List.Forall₂ Class.Copies ns.classes placed.classes

/-- The unit is what the placed records say. -/
structure CompileUnit.Copies (u : CompileUnit) (p : Placement) : Prop where
  namespaces : List.Forall₂ Namespace.Copies u.namespaces p.namespaces
  references : IsFirstSeen (p.namespaces.flatMap PlacedNamespace.allImports) u.references

/-- The conflict tells what is wrong with a method. -/
def SignatureConflict.Tells (c : SignatureConflict) (r : MethodRecord) : Prop :=
  c.method = r.qualifiedName ∧ r.Describes c.problem

/-! ## Methods -/

/-- **A record gives a method, or a conflict if it is malformed.** -/
theorem Method.ofRecord_spec (r : MethodRecord) :
    (¬ r.Malformed ∧ ∃ m, Method.ofRecord r = ⟨some m, []⟩ ∧ m.Copies r) ∨
      r.Malformed ∧ ∃ c : SignatureConflict, Method.ofRecord r = ⟨none, [c]⟩ ∧ c.Tells r := by
  have hparams := r.params_spec
  rw [Method.ofRecord]
  cases hp : r.params with
  | ok ps =>
    rw [hp] at hparams
    obtain ⟨hwell, rfl⟩ := hparams
    have haligned : ¬ r.Misaligned := fun h ↦ hwell (.inl h)
    obtain ⟨htypes, hnames⟩ := MethodRecord.map_zipped haligned
    have htrail := not_not.1 (mt (MethodRecord.malformed_iff_of_aligned haligned).2 hwell)
    exact .inl ⟨hwell, _, rfl, rfl, rfl, rfl, rfl, rfl, htypes, hnames,
      fun i p hat ↦ (MethodRecord.defaultAt?_eq haligned hat).symm, htrail⟩
  | error problem =>
    rw [hp] at hparams
    exact .inr ⟨hparams.1, _, rfl, rfl, hparams.2⟩

/-- Methods give one conflict for each that is malformed. -/
theorem forall₂_conflicts (rs : List MethodRecord) :
    List.Forall₂ SignatureConflict.Tells (rs.flatMap fun r ↦ (Method.ofRecord r).notes)
      (rs.filter fun r ↦ r.Malformed) := by
  induction rs with
  | nil => exact .nil
  | cons r rs ih =>
    rw [List.flatMap_cons]
    rcases Method.ofRecord_spec r with ⟨hwell, m, heq, -⟩ | ⟨hmal, c, heq, htells⟩
    · rw [heq, List.nil_append, List.filter_cons_of_neg (by simpa using hwell)]
      exact ih
    · rw [heq, List.singleton_append, List.filter_cons_of_pos (by simpa using hmal)]
      exact .cons htells ih

/-- Well-formed methods are all there. -/
theorem forall₂_methods {rs : List MethodRecord} (h : ∀ r ∈ rs, ¬ r.Malformed) :
    List.Forall₂ Method.Copies ((rs.map fun r ↦ (Method.ofRecord r).value).filterMap id) rs := by
  induction rs with
  | nil => exact .nil
  | cons r rs ih =>
    have ih := ih fun r' hr' ↦ h r' (List.mem_cons_of_mem _ hr')
    rcases Method.ofRecord_spec r with ⟨-, m, heq, hcopies⟩ | ⟨hmal, -⟩
    · rw [List.map_cons, heq, List.filterMap_cons_some (by rfl)]
      exact .cons hcopies ih
    · exact absurd hmal (h r (List.mem_cons_self ..))

/-! ## Classes, namespaces and units -/

theorem Noted.value_forEach {ε α β : Type} (f : α → Noted ε β) (as : List α) :
    (Noted.forEach f as).value = as.map fun a ↦ (f a).value := by
  induction as with
  | nil => rfl
  | cons a as ih => simp [Noted.forEach, ih]

theorem Noted.notes_forEach {ε α β : Type} (f : α → Noted ε β) (as : List α) :
    (Noted.forEach f as).notes = as.flatMap fun a ↦ (f a).notes := by
  induction as with
  | nil => rfl
  | cons a as ih => simp [Noted.forEach, ih]

/-- The conflicts of a placement are those of its methods, in their order. -/
theorem notes_ofPlaced (p : Placement) :
    (Noted.forEach Namespace.ofPlaced p.namespaces).notes =
      p.methods.flatMap fun r ↦ (Method.ofRecord r).notes := by
  rw [Noted.notes_forEach, Placement.methods, Placement.classes, List.flatMap_assoc,
    List.flatMap_assoc]
  refine List.flatMap_congr fun ns _ ↦ ?_
  rw [Namespace.ofPlaced, Noted.notes_bind, Noted.notes_forEach, Noted.notes_pure, List.append_nil]
  refine List.flatMap_congr fun c _ ↦ ?_
  rw [Class.ofPlaced, Noted.notes_bind, Noted.notes_forEach, Noted.notes_pure, List.append_nil]

theorem Class.copies_ofPlaced {c : PlacedClass} (h : ∀ r ∈ c.methods, ¬ r.Malformed) :
    (Class.ofPlaced c).value.Copies c := by
  rw [Class.ofPlaced, Noted.value_bind, Noted.value_pure, Noted.value_forEach]
  exact ⟨rfl, rfl, rfl, forall₂_methods h⟩

theorem Namespace.copies_ofPlaced {ns : PlacedNamespace}
    (h : ∀ c ∈ ns.classes, ∀ r ∈ c.methods, ¬ r.Malformed) :
    (Namespace.ofPlaced ns).value.Copies ns := by
  rw [Namespace.ofPlaced, Noted.value_bind, Noted.value_pure, Noted.value_forEach]
  refine ⟨rfl, isFirstSeen_firstSeen _, ?_⟩
  rw [List.forall₂_map_left_iff, List.forall₂_same]
  exact fun c hc ↦ Class.copies_ofPlaced (h c hc)

theorem imports_ofPlaced (ns : PlacedNamespace) :
    (Namespace.ofPlaced ns).value.imports = firstSeen ns.allImports := rfl

/-- The references of a unit are the modules that its records name. -/
theorem isFirstSeen_references (p : Placement) :
    IsFirstSeen (p.namespaces.flatMap PlacedNamespace.allImports)
      (CompileUnit.references ⟨p.namespaces.map fun ns ↦ (Namespace.ofPlaced ns).value⟩) := by
  rw [CompileUnit.references, List.flatMap_map]
  simp only [imports_ofPlaced]
  rw [firstSeen_flatMap]
  exact isFirstSeen_firstSeen _

theorem CompileUnit.copies_of_ofPlacement {p : Placement} {u : CompileUnit}
    (h : CompileUnit.ofPlacement p = .ok u) :
    (∀ r ∈ p.methods, ¬ r.Malformed) ∧ u.Copies p := by
  have hconflicts := forall₂_conflicts p.methods
  rw [← notes_ofPlaced] at hconflicts
  rw [ofPlacement] at h
  cases hnotes : (Noted.forEach Namespace.ofPlaced p.namespaces).notes with
  | cons conflict conflicts => simp [hnotes] at h
  | nil =>
    rw [hnotes, List.forall₂_nil_left_iff, List.filter_eq_nil_iff] at hconflicts
    have hwell : ∀ r ∈ p.methods, ¬ r.Malformed := fun r hr ↦ by simpa using hconflicts r hr
    simp only [hnotes, Except.ok.injEq] at h
    subst h
    refine ⟨hwell, ?_, ?_⟩
    · rw [Noted.value_forEach, List.forall₂_map_left_iff, List.forall₂_same]
      intro ns hns
      refine Namespace.copies_ofPlaced fun c hc r hr ↦ hwell r ?_
      exact List.mem_flatMap.2 ⟨c, List.mem_flatMap.2 ⟨ns, hns, hc⟩, hr⟩
    · rw [Noted.value_forEach]
      exact isFirstSeen_references p

theorem CompileUnit.conflicts_of_ofPlacement {p : Placement} {conflicts : List SignatureConflict}
    (h : CompileUnit.ofPlacement p = .error conflicts) :
    (∃ r ∈ p.methods, r.Malformed) ∧
      List.Forall₂ SignatureConflict.Tells conflicts (p.methods.filter fun r ↦ r.Malformed) := by
  have hconflicts := forall₂_conflicts p.methods
  rw [← notes_ofPlaced] at hconflicts
  rw [ofPlacement] at h
  cases hnotes : (Noted.forEach Namespace.ofPlaced p.namespaces).notes with
  | nil => simp [hnotes] at h
  | cons conflict rest =>
    simp only [hnotes, Except.error.injEq] at h
    subst h
    rw [hnotes] at hconflicts
    refine ⟨?_, hconflicts⟩
    cases hmal : p.methods.filter fun r ↦ r.Malformed with
    | nil =>
      rw [hmal] at hconflicts
      cases hconflicts
    | cons r rs =>
      obtain ⟨hr, hrmal⟩ := List.mem_filter.1 (hmal ▸ List.mem_cons_self .. : r ∈ _)
      exact ⟨r, hr, by simpa using hrmal⟩

/-- **Units are exact.**  There is one exactly if no method that has a place is malformed, and then it
is what the records say; otherwise there is one conflict for each malformed method, in their order. -/
theorem CompileUnit.ofPlacement_exact (p : Placement) :
    match CompileUnit.ofPlacement p with
    | .ok u => (∀ r ∈ p.methods, ¬ r.Malformed) ∧ u.Copies p
    | .error conflicts => (∃ r ∈ p.methods, r.Malformed) ∧
        List.Forall₂ SignatureConflict.Tells conflicts (p.methods.filter fun r ↦ r.Malformed) := by
  cases h : CompileUnit.ofPlacement p with
  | ok u => exact copies_of_ofPlacement h
  | error conflicts => exact conflicts_of_ofPlacement h

/-! ## Defaults -/

theorem exists_of_forall₂ {α β : Type} {R : α → β → Prop} {as : List α} {bs : List β}
    (h : List.Forall₂ R as bs) {a : α} (ha : a ∈ as) : ∃ b, R a b := by
  obtain ⟨i, hi, rfl⟩ := List.getElem_of_mem ha
  exact ⟨_, (List.forall₂_iff_get.1 h).2 i hi (h.length_eq ▸ hi)⟩

/-- **The defaults of units that are made of records trail.** -/
theorem CompileUnit.defaultsTrail_ofPlacement {p : Placement} {u : CompileUnit}
    (h : CompileUnit.ofPlacement p = .ok u) : u.DefaultsTrail := by
  intro c hc m hm
  obtain ⟨ns, hns, hc⟩ := List.mem_flatMap.1 hc
  obtain ⟨cls, hcls, rfl⟩ := List.mem_map.1 hc
  obtain ⟨placed, hplaced⟩ := exists_of_forall₂ (copies_of_ofPlacement h).2.namespaces hns
  obtain ⟨placedClass, hclass⟩ := exists_of_forall₂ hplaced.classes hcls
  obtain ⟨r, hr⟩ := exists_of_forall₂ hclass.methods hm
  exact hr.trail

end Dossier
