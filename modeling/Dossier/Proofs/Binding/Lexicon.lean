import Dossier.Proofs.Binding.Accepted
import Dossier.Proofs.Binding.Names
import Dossier.Proofs.Binding.SignatureErrors
import Dossier.Proofs.Parse.Accepts

/-!
# Bodies that share their words

All texts of a unit can be read with one table of words, from the defaults of the signatures to the
last body.  A parameter whose name is not in the table is not put in scope, because no body read so
far speaks of it; the table has the words of all bodies before, so that what is put in scope depends
on them.  Here it is shown that nothing else does.

* `bindSharing` binds a unit in this way, and `bindSharing_eq` says that this is what `bind` does.
* `bodyNotes` are the diagnostics of one body, and `SameFor` says which parts of two units are the same
  for one of their methods.
* `diagnosticsOf` lists all diagnostics: one for each reference that names no module, in the order of
  the references, then those of the signatures, and then those of the bodies one after the other.
* `bind_modular` is the result: these are the diagnostics, and what is said and bound of a body depends
  on nothing but what the units have in common.

A word stands for itself here: two words have the same place in the table exactly if they are equal.
-/

set_option autoImplicit false

namespace Dossier.Script

/-! ## The table of words -/

/-- The words that have been read, each of them once. -/
abbrev Lexicon := List String

namespace Lexicon

/-- The table with one more word. -/
def add (lexicon : Lexicon) (word : String) : Lexicon :=
  if word ∈ lexicon then lexicon else lexicon ++ [word]

/-- The table after a text has been read. -/
def read (lexicon : Lexicon) (source : String) : Lexicon :=
  (wordsOf (tokenize source)).foldl add lexicon

theorem mem_add {lexicon : Lexicon} {word w : String} : w ∈ lexicon.add word ↔ w ∈ lexicon ∨ w = word := by
  rw [add]
  split
  · rename_i hmem
    exact ⟨.inl, fun h ↦ h.elim id fun heq ↦ heq ▸ hmem⟩
  · rw [List.mem_append, List.mem_singleton]

theorem mem_foldl_add {lexicon : Lexicon} {words : List String} {w : String} :
    w ∈ words.foldl add lexicon ↔ w ∈ lexicon ∨ w ∈ words := by
  induction words generalizing lexicon with
  | nil => simp
  | cons word words ih => rw [List.foldl_cons, ih, mem_add, List.mem_cons, or_assoc]

/-- The words of a text are in the table after it has been read. -/
theorem subset_read (lexicon : Lexicon) (source : String) :
    wordsOf (tokenize source) ⊆ lexicon.read source :=
  fun _ h ↦ mem_foldl_add.2 (.inr h)

end Lexicon

/-! ## Binding with the table -/

/-- The parameters of a method, of which those are in scope whose names are in the table. -/
def Declared.ofKnown (lexicon : Lexicon) (params : List BoundParam) : Declared :=
  params.foldl (fun d p ↦ if p.name ∈ lexicon then d.declare p.name (some p.type)
    else { d with frameSize := d.frameSize + 1 }) ⟨[[]], 0⟩

namespace Surroundings

/-- Binds the body of a method, with the parameters that are in the table. -/
def bindKnown (s : Surroundings) (lexicon : Lexicon) (statements : List Stmt) : Found BoundBody := do
  let (body, d) ← s.bindStmts (Declared.ofKnown lexicon s.method.params) statements
  pure ⟨d.frameSize, body⟩

/-- What is said of a method, if its body without syntax errors is bound like this. -/
def report (s : Surroundings) (className : String) (m : Method)
    (bindBody : List Stmt → Found BoundBody) : Noted Diagnostic BoundMethod :=
  let place (span : Text.Span) : Option Location :=
    some (Location.inBody s.namespaceName className m.name m.body span)
  let parsed := parse m.body
  if parsed.errors.isEmpty then
    let bound := bindBody parsed.statements
    let incomplete := s.method.returns != .void && !anyAlwaysExits bound.value.body
    let missing := if incomplete then
        [(Problem.missingReturn s.method.qualifiedName).toDiagnostic none]
      else []
    ⟨{ s.method with frameSize := bound.value.frameSize, body := bound.value.body },
      (bound.notes.map fun p ↦ p.problem.toDiagnostic (place p.span)) ++ missing⟩
  else
    ⟨{ s.method with frameSize := 0, body := [] },
      parsed.errors.map fun e ↦ (Problem.syntaxError e.message).toDiagnostic (place e.span)⟩

theorem report_bindBody (s : Surroundings) (className : String) (m : Method) :
    s.report className m s.bindBody = bindMethod s className m := rfl

end Surroundings

/-- Binds the methods of a class one after the other, and reads the words of their bodies on the way. -/
def bindMethodsSharing (surroundings : Signature → Surroundings) (className : String) :
    Lexicon → List Signature → List Method → Noted Diagnostic (List BoundMethod) × Lexicon
  | lexicon, signature :: signatures, m :: ms =>
    let s := surroundings signature
    let lexicon := lexicon.read m.body
    let (rest, final) := bindMethodsSharing surroundings className lexicon signatures ms
    (do
      let first ← s.report className m (s.bindKnown lexicon)
      let rest ← rest
      pure (first :: rest), final)
  | lexicon, _, _ => (pure [], lexicon)

/-- Binds the classes from the position `index` on, with the words of all bodies before. -/
def bindClassesSharing (all : List ClassSignature) : Lexicon → (index : Nat) →
    List ClassSignature → List (Namespace × Class) → Noted Diagnostic (List BoundClass)
  | lexicon, index, c :: rest, (ns, decl) :: decls =>
    let (methods, lexicon) :=
      bindMethodsSharing (fun m ↦ ⟨all, ns.imports, index, c.namespaceName, m⟩) decl.name lexicon
        c.methods decl.methods
    do
      let methods ← methods
      let more ← bindClassesSharing all lexicon (index + 1) rest decls
      pure (⟨c.namespaceName, c.name, c.fullName, c.isStatic, methods⟩ :: more)
  | _, _, _, _ => pure []

/-- The texts of all defaults. -/
def defaultTexts (u : CompileUnit) : List String :=
  u.classes.flatMap fun c ↦ c.2.methods.flatMap fun m ↦ m.params.filterMap Parameter.default?

/-- Binds all of a unit with one table of words, and notes what is wrong with it. -/
def bindAllSharing (u : CompileUnit) (references : List String) : Noted Diagnostic BoundProgram :=
  let signatures := bindAllSignatures u
  let general := referenceProblems references ++ signatures.notes
  let lexicon := (defaultTexts u).foldl Lexicon.read []
  let classes := bindClassesSharing signatures.value lexicon 0 signatures.value u.classes
  ⟨⟨classes.value⟩, (general.map fun p ↦ p.toDiagnostic none) ++ classes.notes⟩

/-- The program of a unit that is bound with one table of words, or why there is none. -/
def bindSharing (u : CompileUnit) (references : List String) :
    Except (List Diagnostic) BoundProgram :=
  let bound := bindAllSharing u references
  if bound.notes.isEmpty then .ok bound.value else .error bound.notes

/-! ## The table makes no difference -/

/-- Parameters that are not in the table are those that no word means. -/
theorem agree_ofKnown {words : List String} {lexicon : Lexicon} (h : words ⊆ lexicon)
    (params : List BoundParam) :
    Agree words (Declared.ofKnown lexicon params) (Declared.ofParams params) := by
  have hfold (d d' : Declared) (hd : Agree words d d') :
      Agree words
        (params.foldl (fun d p ↦ if p.name ∈ lexicon then d.declare p.name (some p.type)
          else { d with frameSize := d.frameSize + 1 }) d)
        (params.foldl (fun d p ↦ d.declare p.name (some p.type)) d') := by
    induction params generalizing d d' with
    | nil => exact hd
    | cons p params ih =>
      rw [List.foldl_cons, List.foldl_cons]
      refine ih _ _ ?_
      by_cases hp : p.name ∈ lexicon
      · rw [if_pos hp]
        exact hd.declare _ _
      · rw [if_neg hp]
        refine ⟨congrArg (· + 1) hd.frameSize, hd.ne_nil, Scopes.declare_ne_nil hd.ne_nil' _ _,
          fun w hw ↦ ?_⟩
        have hne : w ≠ p.name := fun heq ↦ hp (heq ▸ h hw)
        rw [Declared.declare, Scopes.find?_declare hd.ne_nil', if_neg hne]
        exact hd.find w hw
  exact hfold _ _ ⟨rfl, List.cons_ne_nil _ _, List.cons_ne_nil _ _, fun _ _ ↦ rfl⟩

/-- The names of a body that can be parsed are words of it. -/
theorem names_of_errors {source : String} (h : (parse source).errors = []) :
    namesOfBody (parse source).statements ⊆ wordsOf (tokenize source) := by
  obtain ⟨front, span, htokens, hderives⟩ := bodyDerives_of_errors h
  rw [htokens, wordsOf_append]
  exact List.subset_append_of_subset_left _ hderives.names

namespace Surroundings

theorem bindKnown_eq (s : Surroundings) {lexicon : Lexicon} {statements : List Stmt}
    (h : namesOfBody statements ⊆ lexicon) : s.bindKnown lexicon statements = s.bindBody statements := by
  obtain ⟨hvalue, hnotes, hdeclared⟩ := s.alike_bindStmts statements
    (agree_ofKnown h s.method.params) (List.Subset.refl _)
  have hbody : (⟨(s.bindStmts (Declared.ofKnown lexicon s.method.params) statements).value.2.frameSize,
      (s.bindStmts (Declared.ofKnown lexicon s.method.params) statements).value.1⟩ : BoundBody) =
      ⟨(s.bindStmts (Declared.ofParams s.method.params) statements).value.2.frameSize,
        (s.bindStmts (Declared.ofParams s.method.params) statements).value.1⟩ := by
    rw [hvalue, hdeclared.frameSize]
  exact congrArg₂ Noted.mk hbody (congrArg (· ++ []) hnotes)

/-- **A body is bound the same with every table that has its words.** -/
theorem report_bindKnown (s : Surroundings) (className : String) (m : Method) {lexicon : Lexicon}
    (h : wordsOf (tokenize m.body) ⊆ lexicon) :
    s.report className m (s.bindKnown lexicon) = bindMethod s className m := by
  rw [← report_bindBody, report, report]
  cases herrors : (parse m.body).errors with
  | nil => rw [s.bindKnown_eq (List.Subset.trans (names_of_errors herrors) h)]
  | cons => rfl

end Surroundings

theorem bindMethodsSharing_eq (surroundings : Signature → Surroundings) (className : String)
    (lexicon : Lexicon) (signatures : List Signature) (ms : List Method) :
    (bindMethodsSharing surroundings className lexicon signatures ms).1 =
      bindMethods surroundings className signatures ms := by
  induction signatures generalizing lexicon ms with
  | nil => rfl
  | cons signature signatures ih =>
    cases ms with
    | nil => rfl
    | cons m ms =>
      rw [bindMethodsSharing, bindMethods, ← ih (lexicon.read m.body) ms,
        ← Surroundings.report_bindKnown _ _ _ (lexicon.subset_read m.body)]

theorem bindClassesSharing_eq (all : List ClassSignature) (lexicon : Lexicon) (index : Nat)
    (cs : List ClassSignature) (decls : List (Namespace × Class)) :
    bindClassesSharing all lexicon index cs decls = bindClasses all index cs decls := by
  induction cs generalizing lexicon index decls with
  | nil => rfl
  | cons c cs ih =>
    cases decls with
    | nil => rfl
    | cons decl decls =>
      rw [bindClassesSharing, bindClasses]
      simp only [bindMethodsSharing_eq, ih]

/-- **Binding with one table of words is binding.** -/
theorem bindSharing_eq (u : CompileUnit) (references : List String) :
    bindSharing u references = bind u references := by
  have hall : bindAllSharing u references = bindAll u references := by
    simp only [bindAllSharing, bindAll, bindClassesSharing_eq]
  rw [bindSharing, bind, hall]

/-! ## One body after the other -/

/-- What is said of the body of a method. -/
def bodyNotes (u : CompileUnit) (classIndex : Nat) (c : Namespace × Class) (m : Method) :
    List Diagnostic :=
  ((siteIn u classIndex c m).bind c.2.name).notes

/-- What is said of the bodies, one after the other. -/
def allBodyNotes (u : CompileUnit) : List (List Diagnostic) :=
  u.classes.zipIdx.flatMap fun (c, classIndex) ↦ c.2.methods.map (bodyNotes u classIndex c)

theorem flatten_notes_bindMethods (surroundings : Signature → Surroundings)
    (className fullName : String) (ms : List Method) :
    (bindMethods surroundings className (ms.map (signatureOf fullName)) ms).notes =
      (ms.map fun m ↦ (bindMethod (surroundings (signatureOf fullName m)) className m).notes).flatten := by
  induction ms with
  | nil => rfl
  | cons m ms ih => simp [bindMethods, ih]

theorem flatten_notes_bindClasses (u : CompileUnit) (cs : List (Namespace × Class)) (index : Nat) :
    (bindClasses (u.classes.map classSignatureOf) index (cs.map classSignatureOf) cs).notes =
      ((cs.zipIdx index).flatMap fun (c, classIndex) ↦
        c.2.methods.map (bodyNotes u classIndex c)).flatten := by
  induction cs generalizing index with
  | nil => rfl
  | cons c cs ih =>
    simp only [List.map_cons, bindClasses, Noted.notes_bind, Noted.notes_pure, List.append_nil, ih,
      List.zipIdx_cons, List.flatMap_cons, List.flatten_append]
    exact congrArg (· ++ _) (flatten_notes_bindMethods _ _ _ _)

/-- What is said of a unit: first of each reference that names no module, then of its signatures, and
then of its bodies. -/
def diagnosticsOf (u : CompileUnit) (references : List String) : List Diagnostic :=
  references.filterMap missingReference? ++
    ((signatureErrors u).map (fun p ↦ p.toDiagnostic none) ++ (allBodyNotes u).flatten)

theorem notes_bindAll (u : CompileUnit) (references : List String) :
    (bindAll u references).notes = diagnosticsOf u references := by
  simp only [bindAll, value_bindAllSignatures, diagnosticsOf, allBodyNotes, List.map_append,
    List.append_assoc, flatten_notes_bindClasses, diagnostics_referenceProblems,
    notes_bindAllSignatures]

/-! ## What a body depends on -/

/-- What is said of the method at a position in the class at a position, with the method bound. -/
def reportAt? (u : CompileUnit) (classIndex methodIndex : Nat) :
    Option (Noted Diagnostic BoundMethod) := do
  let c ← u.classes[classIndex]?
  let m ← c.2.methods[methodIndex]?
  some ((siteIn u classIndex c m).bind c.2.name)

/-- The body of that method. -/
def bodyAt? (u : CompileUnit) (classIndex methodIndex : Nat) : Option String := do
  let c ← u.classes[classIndex]?
  let m ← c.2.methods[methodIndex]?
  some m.body

/-- The imports of the namespace of the class at a position. -/
def importsAt? (u : CompileUnit) (classIndex : Nat) : Option (List String) := do
  let c ← u.classes[classIndex]?
  some c.1.imports

/-- The units have the same signatures, and the same imports and body for one of their methods. -/
structure SameFor (classIndex methodIndex : Nat) (u u' : CompileUnit) : Prop where
  signatures : u.classes.map classSignatureOf = u'.classes.map classSignatureOf
  imports : importsAt? u classIndex = importsAt? u' classIndex
  body : bodyAt? u classIndex methodIndex = bodyAt? u' classIndex methodIndex

theorem bindMethod_congr (s : Surroundings) (className : String) {m m' : Method}
    (hname : m.name = m'.name) (hbody : m.body = m'.body) :
    bindMethod s className m = bindMethod s className m' := by
  rw [bindMethod, bindMethod, hname, hbody]

theorem name_signatureOf (fullName : String) (m : Method) : (signatureOf fullName m).name = m.name := rfl

/-- What two lists with the same images have at a position. -/
theorem getElem?_of_map_eq {α β : Type} {f : α → β} {as bs : List α} (h : as.map f = bs.map f)
    (i : Nat) : as[i]? = none ∧ bs[i]? = none ∨
      ∃ a b, as[i]? = some a ∧ bs[i]? = some b ∧ f a = f b := by
  have hi := congrArg (·[i]?) h
  simp only [List.getElem?_map] at hi
  cases has : as[i]? with
  | none =>
    rw [has, Option.map_none, eq_comm, Option.map_eq_none_iff] at hi
    exact .inl ⟨rfl, hi⟩
  | some a =>
    rw [has, Option.map_some, eq_comm, Option.map_eq_some_iff] at hi
    obtain ⟨b, hb, hf⟩ := hi
    exact .inr ⟨a, b, rfl, hb, hf.symm⟩

/-- **What is said and bound of a body depends on no other body.** -/
theorem SameFor.reportAt?_eq {u u' : CompileUnit} {ci mi : Nat} (h : SameFor ci mi u u') :
    reportAt? u ci mi = reportAt? u' ci mi := by
  obtain ⟨hsignatures, himports, hbody⟩ := h
  simp only [importsAt?, bodyAt?, reportAt?, Option.bind_eq_bind] at himports hbody ⊢
  rcases getElem?_of_map_eq hsignatures ci with ⟨hc, hc'⟩ | ⟨c, c', hc, hc', hsignature⟩
  · simp only [hc, hc', Option.bind_none]
  · have hnamespace : c.1.name = c'.1.name := congrArg ClassSignature.namespaceName hsignature
    have hclass : c.2.name = c'.2.name := congrArg ClassSignature.name hsignature
    have hmethods := congrArg ClassSignature.methods hsignature
    simp only [classSignatureOf, hnamespace, hclass] at hmethods
    simp only [hc, hc', Option.bind_some, Option.some.injEq] at himports hbody ⊢
    rcases getElem?_of_map_eq hmethods mi with ⟨hm, hm'⟩ | ⟨m, m', hm, hm', heq⟩
    · simp only [hm, hm', Option.bind_none]
    · have hname := congrArg Signature.name heq
      rw [name_signatureOf, name_signatureOf] at hname
      simp only [hm, hm', Option.bind_some, Option.some.injEq] at hbody ⊢
      simp only [Site.bind, siteIn, hsignatures, himports, hnamespace, hclass, heq]
      exact bindMethod_congr _ _ hname hbody

/-- The methods that are bound are those that are reported on. -/
theorem method?_bindAll (u : CompileUnit) (references : List String) (ci mi : Nat) :
    (bindAll u references).value.method? ci mi = (reportAt? u ci mi).map Noted.value := by
  have hget := getElem?_bindClasses u u.classes 0 ci
  rw [Nat.zero_add] at hget
  simp only [bindAll, value_bindAllSignatures, BoundProgram.method?, reportAt?, hget]
  cases u.classes[ci]? with
  | none => rfl
  | some c => cases hm : c.2.methods[mi]? <;> simp [hm]

theorem eq_value_of_bind {u : CompileUnit} {references : List String} {p : BoundProgram}
    (h : bind u references = .ok p) : p = (bindAll u references).value := by
  rw [bind] at h
  split at h
  · exact (Except.ok.inj h).symm
  · cases h

/-! ## Units that differ in bodies -/

/-- A class without the bodies of its methods. -/
def classWithoutBodies (c : Class) : Class :=
  { c with methods := c.methods.map fun m ↦ { m with body := "" } }

/-- A unit without its bodies. -/
def withoutBodies (u : CompileUnit) : CompileUnit :=
  ⟨u.namespaces.map fun ns ↦ { ns with classes := ns.classes.map classWithoutBodies }⟩

theorem classes_withoutBodies (u : CompileUnit) : (withoutBodies u).classes =
    u.classes.map fun c ↦
      ({ c.1 with classes := c.1.classes.map classWithoutBodies }, classWithoutBodies c.2) := by
  simp only [CompileUnit.classes, withoutBodies, List.flatMap_map, List.map_flatMap, List.map_map]
  rfl

theorem signatures_withoutBodies (u : CompileUnit) :
    (withoutBodies u).classes.map classSignatureOf = u.classes.map classSignatureOf := by
  rw [classes_withoutBodies, List.map_map]
  refine List.map_congr_left fun c _ ↦ ?_
  simp only [Function.comp_apply, classSignatureOf, classWithoutBodies, List.map_map]
  rfl

theorem importsAt?_withoutBodies (u : CompileUnit) (ci : Nat) :
    importsAt? (withoutBodies u) ci = importsAt? u ci := by
  simp only [importsAt?, classes_withoutBodies, List.getElem?_map]
  cases u.classes[ci]? <;> rfl

/-- Units that differ only in the bodies of other methods are the same for a method. -/
theorem sameFor_of_withoutBodies {u u' : CompileUnit} {ci mi : Nat}
    (h : withoutBodies u = withoutBodies u') (hbody : bodyAt? u ci mi = bodyAt? u' ci mi) :
    SameFor ci mi u u' where
  signatures := by rw [← signatures_withoutBodies u, h, signatures_withoutBodies]
  imports := by rw [← importsAt?_withoutBodies u, h, importsAt?_withoutBodies]
  body := hbody

/-! ## Modularity -/

/-- **Binding is modular.**  With one table of words for all bodies the outcome is the same as without
one.  What is said of a unit is one error for each reference that names no module, in their order, then
what is wrong with its signatures, and then what is said of one body after the other; and what is said
and bound of a body depends only on the signatures, the imports of its namespace and the body itself,
so that units that differ in other bodies have it in common. -/
theorem bind_modular (u : CompileUnit) (references : List String) :
    bindSharing u references = bind u references ∧
    bind u references = (if (diagnosticsOf u references).isEmpty
      then .ok (bindAll u references).value else .error (diagnosticsOf u references)) ∧
    (∀ u' ci mi, SameFor ci mi u u' → reportAt? u ci mi = reportAt? u' ci mi ∧
      ∀ references' p p', bind u references = .ok p → bind u' references' = .ok p' →
        p.method? ci mi = p'.method? ci mi) ∧
    ∀ u' ci mi, withoutBodies u = withoutBodies u' → bodyAt? u ci mi = bodyAt? u' ci mi →
      SameFor ci mi u u' := by
  refine ⟨bindSharing_eq u references, ?_, fun u' ci mi hsame ↦ ⟨hsame.reportAt?_eq, ?_⟩,
    fun u' ci mi ↦ sameFor_of_withoutBodies⟩
  · rw [bind, notes_bindAll]
  · intro references' p p' hp hp'
    rw [eq_value_of_bind hp, eq_value_of_bind hp', method?_bindAll, method?_bindAll,
      hsame.reportAt?_eq]

/-- A class of two methods: the first one has the body that is given, and the second one a parameter
that its own body does not speak of. -/
def pairUnit (body : String) : CompileUnit :=
  ⟨[⟨"Shop", ["System"], [⟨"Till", .everyone, false,
    [⟨"First", .everyone, false, "void", [], body⟩,
      ⟨"Second", .everyone, false, "int", [⟨"int", "spare", none⟩], "int two = 2; return two;"⟩]⟩]⟩]⟩

/-- The parameter is in the table or not, as the first body has it; the second method is the same.  With
references that name no module there is no program, but an error for each of them. -/
theorem pairUnit_modular : ∃ p p' m,
    bind (pairUnit "return;") [] = .ok p ∧ bind (pairUnit "int spare = 1;") [] = .ok p' ∧
      p.method? 0 1 = some m ∧ p'.method? 0 1 = some m ∧ m.frameSize = 2 ∧
      "spare" ∉ (Lexicon.read [] "return;").read "int two = 2; return two;" ∧
      "spare" ∈ (Lexicon.read [] "int spare = 1;").read "int two = 2; return two;" ∧
      bind (pairUnit "return;") ["Toys", "System", "Books"] =
        .error [⟨.error, "JS0006", "Metadata file 'Toys.dll' could not be found", none⟩,
          ⟨.error, "JS0006", "Metadata file 'Books.dll' could not be found", none⟩] := by
  have hbind : bind (pairUnit "return;") [] = .ok (bindAll (pairUnit "return;") []).value :=
    bind_of_clean (by decide +kernel)
  have hbind' : bind (pairUnit "int spare = 1;") [] =
      .ok (bindAll (pairUnit "int spare = 1;") []).value := bind_of_clean (by decide +kernel)
  have hmodular := bind_modular (pairUnit "return;") []
  have hsame := hmodular.2.2.2 (pairUnit "int spare = 1;") 0 1 rfl rfl
  have hmethod := (hmodular.2.2.1 _ 0 1 hsame).2 [] _ _ hbind hbind'
  have hsize : ((bindAll (pairUnit "return;") []).value.method? 0 1).map BoundMethod.frameSize =
      some 2 := by decide +kernel
  obtain ⟨m, hm, hframe⟩ := Option.map_eq_some_iff.1 hsize
  have hsaid : diagnosticsOf (pairUnit "return;") ["Toys", "System", "Books"] =
      [⟨.error, "JS0006", "Metadata file 'Toys.dll' could not be found", none⟩,
        ⟨.error, "JS0006", "Metadata file 'Books.dll' could not be found", none⟩] := by
    decide +kernel
  obtain ⟨-, hwrong, -⟩ := bind_modular (pairUnit "return;") ["Toys", "System", "Books"]
  rw [hsaid] at hwrong
  exact ⟨_, _, m, hbind, hbind', hm, hmethod ▸ hm, hframe, by decide +kernel, by decide +kernel,
    hwrong⟩

end Dossier.Script
