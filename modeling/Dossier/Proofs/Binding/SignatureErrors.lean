import Dossier.Proofs.Binding.Accepted

/-!
# What is said before the bodies

The first diagnostics of a unit are about its references, and then about its signatures.  Here both
are listed from the declarations alone.

* `missingReference?` is the diagnostic of a reference that names no module;
  `diagnostics_referenceProblems` says that these are the diagnostics of references, in the order in
  which the references are given.
* `signatureErrors` lists the problems of signatures: for each class, in the order of the
  declarations, whether its full name is taken, and for each of its methods whether the name is taken,
  whether it can be there, and what is wrong with the types and defaults.
* The passes of the binder carry the names that they have seen.  `said_eq_saidOfEach` turns such a pass
  into a list over the declarations, each with those in front of it.
-/

set_option autoImplicit false

namespace Dossier.Script

/-! ## References -/

/-- What is said of a reference. -/
def missingReference? (reference : String) : Option Diagnostic :=
  if reference ∈ Library.modules then none
  else some ⟨.error, "JS0006", "Metadata file '" ++ reference ++ ".dll' could not be found", none⟩

theorem toDiagnostic_unknownReference (reference : String) :
    (Problem.unknownReference reference).toDiagnostic none =
      ⟨.error, "JS0006", "Metadata file '" ++ reference ++ ".dll' could not be found", none⟩ := by
  have hhead : "Metadata file '" = "Metadata file " ++ "'" := by decide +kernel
  have htail : ".dll' could not be found" = ".dll" ++ ("'" ++ " could not be found") := by
    decide +kernel
  have hmessage : "Metadata file " ++ quoted (reference ++ ".dll") ++ " could not be found" =
      "Metadata file '" ++ reference ++ ".dll' could not be found" := by
    rw [hhead, htail, quoted]
    simp only [String.append_assoc]
  exact congrArg (Diagnostic.mk .error "JS0006" · none) hmessage

/-- **Each reference that names no module is reported**, and nothing else is, in their order. -/
theorem diagnostics_referenceProblems (references : List String) :
    (referenceProblems references).map (fun p ↦ p.toDiagnostic none) =
      references.filterMap missingReference? := by
  induction references with
  | nil => rfl
  | cons r rs ih =>
    rw [referenceProblems] at ih ⊢
    rw [List.filter_cons, List.filterMap_cons, missingReference?]
    by_cases hr : r ∈ Library.modules
    · have hknown : Library.isModule r = true := List.contains_iff_mem.2 hr
      simpa only [hr, hknown, Bool.not_true, Bool.false_eq_true, if_false, if_true] using ih
    · have hmissing : Library.isModule r = false := by simpa [Library.isModule] using hr
      simp only [hr, hmissing, Bool.not_false, if_true, if_false, List.map_cons, ih,
        toDiagnostic_unknownReference]

/-! ## Declarations with those in front of them -/

section

variable {α β : Type}

/-- What is said of declarations, one after the other, where it is known of each whether one in front
of it has the same name. -/
def saidOfEach (name : α → String) (said : Bool → α → List β) (as : List α) : List β :=
  as.zipIdx.flatMap fun x ↦ said ((as.take x.2).any fun b ↦ name b == name x.1) x.1

/-- **A pass that carries the names in front** says the same of each declaration. -/
theorem said_eq_saidOfEach {name : α → String} {said : Bool → α → List β}
    (pass : List String → List α → List β) (hnil : ∀ before, pass before [] = [])
    (hcons : ∀ before a as,
      pass before (a :: as) = said (before.contains (name a)) a ++ pass (name a :: before) as)
    (as : List α) : pass [] as = saidOfEach name said as := by
  -- the declarations that the pass has left behind stay in front of those to come
  have h (done rest : List α) : pass (done.reverse.map name) rest =
      (rest.zipIdx done.length).flatMap fun x ↦
        said (((done ++ rest).take x.2).any fun b ↦ name b == name x.1) x.1 := by
    induction rest generalizing done with
    | nil => simp [hnil]
    | cons a rest ih =>
      have hbefore : (done.reverse.map name).contains (name a) =
          ((done ++ a :: rest).take done.length).any fun b ↦ name b == name a := by
        rw [List.take_left, ← List.any_reverse]
        induction done.reverse with
        | nil => rfl
        | cons b bs ihb =>
          rw [List.map_cons, List.contains_cons, List.any_cons, ihb, BEq.comm]
      have hmore := ih (done ++ [a])
      rw [List.reverse_append, List.reverse_singleton, List.singleton_append, List.map_cons,
        List.length_append, List.length_singleton, List.append_assoc, List.singleton_append] at hmore
      rw [hcons, hmore, hbefore, List.zipIdx_cons, List.flatMap_cons]
  exact h [] as

end

/-! ## Signatures -/

/-- What is said of the name of a type. -/
def typeErrors (method type : String) : List Problem :=
  match ValueType.ofText? type with
  | some _ => []
  | none => [.unknownSignatureType type method]

/-- What is said of the default of a parameter. -/
def defaultErrors (method : String) (p : Parameter) : List Problem :=
  match p.default?, (ValueType.ofText? p.type).getD .object with
  | none, _ => []
  | some text, type =>
    match defaultValue? text with
    | none => [.defaultNotConstant p.name method]
    | some value =>
      match type.coerce value with
      | .ok _ => []
      | .error _ => [.defaultMismatch value.typeName p.name method type]

/-- What is said of a parameter, where `again` tells that one in front of it has its name. -/
def parameterErrors (method : String) (again : Bool) (p : Parameter) : List Problem :=
  (if again then [.duplicateParameter p.name method] else []) ++
    (typeErrors method p.type ++
      ((if ValueType.ofText? p.type = some .void then [.voidParameter p.name method] else []) ++
        defaultErrors method p))

/-- What is said of the signature of a method. -/
def methodErrors (className : String) (classIsStatic again : Bool) (m : Method) : List Problem :=
  (if again then [.duplicateMethod className m.name] else []) ++
    ((if classIsStatic && !m.isStatic then [.instanceMember (qualify className m.name)] else []) ++
      (typeErrors (qualify className m.name) m.returns ++
        saidOfEach Parameter.name (parameterErrors (qualify className m.name)) m.params))

/-- What is said of the signatures of a class. -/
def classErrors (again : Bool) (c : Namespace × Class) : List Problem :=
  (if again then [.duplicateClass c.1.name c.2.name] else []) ++
    saidOfEach Method.name (methodErrors (qualify c.1.name c.2.name) c.2.isStatic) c.2.methods

/-- What is said of the signatures of a unit. -/
def signatureErrors (u : CompileUnit) : List Problem :=
  saidOfEach (fun c : Namespace × Class ↦ qualify c.1.name c.2.name) classErrors u.classes

theorem notes_bindSignatureType (method type : String) :
    (bindSignatureType method type).notes = typeErrors method type := by
  unfold bindSignatureType typeErrors
  cases ValueType.ofText? type <;> rfl

theorem value_bindSignatureType (method type : String) :
    (bindSignatureType method type).value = (ValueType.ofText? type).getD .object := by
  unfold bindSignatureType
  cases ValueType.ofText? type <;> rfl

theorem notes_bindDefault (parameter method : String) (type : ValueType) (text : String) :
    (bindDefault parameter method type text).notes =
      match defaultValue? text with
      | none => [.defaultNotConstant parameter method]
      | some value =>
        match type.coerce value with
        | .ok _ => []
        | .error _ => [.defaultMismatch value.typeName parameter method type] := by
  unfold bindDefault
  cases defaultValue? text with
  | none => rfl
  | some value =>
    dsimp only
    cases type.coerce value <;> rfl

theorem notes_bindParam (method : String) (again : Bool) (p : Parameter) :
    (if again then [.duplicateParameter p.name method] else []) ++ (bindParam method p).notes =
      parameterErrors method again p := by
  have hvoid : ((ValueType.ofText? p.type).getD .object == .void) =
      decide (ValueType.ofText? p.type = some .void) := by
    cases ValueType.ofText? p.type with
    | none => rfl
    | some t => cases t <;> rfl
  simp only [bindParam, parameterErrors, defaultErrors, Noted.notes_bind, notes_bindSignatureType,
    value_bindSignatureType, Noted.noteIf, hvoid, decide_eq_true_eq]
  cases p.default? with
  | none => rfl
  | some text =>
    simp only [Noted.notes_bind, Noted.notes_pure, List.append_nil, notes_bindDefault]

theorem notes_bindParams (method : String) (ps : List Parameter) :
    (bindParams method [] ps).notes = saidOfEach Parameter.name (parameterErrors method) ps :=
  said_eq_saidOfEach (fun before ps ↦ (bindParams method before ps).notes) (fun _ ↦ rfl)
    (fun before p ps ↦ by
      simp only [bindParams, Noted.notes_bind, Noted.noteIf, Noted.notes_pure, List.append_nil,
        ← notes_bindParam, List.append_assoc]) ps

theorem notes_bindSignature (className : String) (m : Method) :
    (bindSignature className m).notes = typeErrors (qualify className m.name) m.returns ++
      saidOfEach Parameter.name (parameterErrors (qualify className m.name)) m.params := by
  simp only [bindSignature, Noted.notes_bind, notes_bindSignatureType, notes_bindParams,
    Noted.notes_pure, List.append_nil]

theorem notes_bindSignatures_eq (className : String) (static : Bool) (ms : List Method) :
    (bindSignatures className static [] ms).notes =
      saidOfEach Method.name (methodErrors className static) ms :=
  said_eq_saidOfEach (fun before ms ↦ (bindSignatures className static before ms).notes)
    (fun _ ↦ rfl) (fun before m ms ↦ by
      simp only [bindSignatures, methodErrors, Noted.notes_bind, Noted.noteIf, Noted.notes_pure,
        List.append_nil, notes_bindSignature, List.append_assoc]) ms

/-- **What is said of the signatures** is what is wrong with them, in the order of the
declarations. -/
theorem notes_bindAllSignatures (u : CompileUnit) :
    (bindAllSignatures u).notes = signatureErrors u :=
  said_eq_saidOfEach (fun before cs ↦ (bindClassSignatures before cs).notes) (fun _ ↦ rfl)
    (fun before c cs ↦ by
      simp only [bindClassSignatures, classErrors, Noted.notes_bind, Noted.noteIf, Noted.notes_pure,
        List.append_nil, notes_bindSignatures_eq, List.append_assoc]) u.classes

end Dossier.Script
