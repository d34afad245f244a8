import Dossier.Script.Binding
import Mathlib.Tactic.ByContra

/-!
# Accepted compile units

What it means for a method that `bind` found nothing wrong with its compile unit.

* `Site` is a method of a compile unit together with all that its body can refer to, and `site?`
  finds it by the positions of its class and of itself.
* `method?_of_bind`: the methods of the bound program are those of the unit, position by position,
  each bound at its own site.
* `accepted_of_bind`: each of them has a signature, a syntax tree and a bound body without a note.

Binding keeps the shape of the unit, whatever it notes, so that the values of its two passes are
maps over the declarations; the lemmas before say so.
-/

set_option autoImplicit false

namespace Dossier.Script

/-! ## Notes -/

@[simp] theorem Noted.notes_noteIf {ε : Type} {b : Bool} {e : ε} :
    (Noted.noteIf b e).notes = [] ↔ b = false := by
  cases b <;> simp [Noted.noteIf]

@[simp] theorem Noted.notes_note {ε : Type} (e : ε) : (Noted.note e).notes = [e] := rfl

/-! ## The shape of the signatures -/

/-- The signature of a method of a class, without what is noted about it. -/
def signatureOf (fullName : String) (m : Method) : Signature := (bindSignature fullName m).value

/-- The signature of a class, without what is noted about it. -/
def classSignatureOf (c : Namespace × Class) : ClassSignature :=
  let fullName := qualify c.1.name c.2.name
  ⟨c.1.name, c.2.name, fullName, c.2.isStatic, c.2.methods.map (signatureOf fullName)⟩

theorem value_bindSignatures (fullName : String) (static : Bool) (before : List String)
    (ms : List Method) :
    (bindSignatures fullName static before ms).value = ms.map (signatureOf fullName) := by
  induction ms generalizing before with
  | nil => rfl
  | cons m ms ih => simp [bindSignatures, signatureOf, ih]

theorem value_bindClassSignatures (before : List String) (cs : List (Namespace × Class)) :
    (bindClassSignatures before cs).value = cs.map classSignatureOf := by
  induction cs generalizing before with
  | nil => rfl
  | cons c cs ih => simp [bindClassSignatures, classSignatureOf, value_bindSignatures, ih]

theorem value_bindAllSignatures (u : CompileUnit) :
    (bindAllSignatures u).value = u.classes.map classSignatureOf :=
  value_bindClassSignatures [] u.classes

theorem notes_bindSignatures {fullName : String} {static : Bool} {before : List String}
    {ms : List Method} (h : (bindSignatures fullName static before ms).notes = []) :
    ∀ m ∈ ms, (bindSignature fullName m).notes = [] := by
  induction ms generalizing before with
  | nil => simp
  | cons m ms ih =>
    simp only [bindSignatures, Noted.notes_bind, Noted.notes_pure, List.append_eq_nil_iff] at h
    intro m' hm'
    rcases List.mem_cons.1 hm' with rfl | hm'
    · exact h.2.2.1
    · exact ih h.2.2.2.1 m' hm'

theorem notes_bindClassSignatures {before : List String} {cs : List (Namespace × Class)}
    (h : (bindClassSignatures before cs).notes = []) :
    ∀ c ∈ cs, ∀ m ∈ c.2.methods, (bindSignature (qualify c.1.name c.2.name) m).notes = [] := by
  induction cs generalizing before with
  | nil => simp
  | cons c cs ih =>
    simp only [bindClassSignatures, Noted.notes_bind, Noted.notes_pure,
      List.append_eq_nil_iff] at h
    intro c' hc'
    rcases List.mem_cons.1 hc' with rfl | hc'
    · exact notes_bindSignatures h.2.1
    · exact ih h.2.2.1 c' hc'

/-! ## The shape of the bodies -/

theorem value_bindMethods (surroundings : Signature → Surroundings) (className fullName : String)
    (ms : List Method) :
    (bindMethods surroundings className (ms.map (signatureOf fullName)) ms).value =
      ms.map fun m ↦ (bindMethod (surroundings (signatureOf fullName m)) className m).value := by
  induction ms with
  | nil => rfl
  | cons m ms ih => simp [bindMethods, ih]

theorem notes_bindMethods {surroundings : Signature → Surroundings} {className fullName : String}
    {ms : List Method}
    (h : (bindMethods surroundings className (ms.map (signatureOf fullName)) ms).notes = []) :
    ∀ m ∈ ms, (bindMethod (surroundings (signatureOf fullName m)) className m).notes = [] := by
  induction ms with
  | nil => simp
  | cons m ms ih =>
    simp only [List.map_cons, bindMethods, Noted.notes_bind, Noted.notes_pure,
      List.append_eq_nil_iff] at h
    intro m' hm'
    rcases List.mem_cons.1 hm' with rfl | hm'
    · exact h.1
    · exact ih h.2.1 m' hm'

/-! ## Sites -/

/-- A method of a compile unit, with what its body can refer to. -/
structure Site where
  /-- What its body can refer to. -/
  surroundings : Surroundings
  /-- The full name of its class. -/
  className : String
  /-- Its declaration. -/
  method : Method

namespace Site

/-- The statements of its body. -/
def statements (t : Site) : List Stmt := (parse t.method.body).statements

/-- Its body, bound. -/
def bodyNoted (t : Site) : Found BoundBody := t.surroundings.bindBody t.statements

/-- The method, bound. -/
def bound (t : Site) : BoundMethod :=
  { t.surroundings.method with
    frameSize := t.bodyNoted.value.frameSize, body := t.bodyNoted.value.body }

/-- Nothing is wrong with the method. -/
structure Accepted (t : Site) : Prop where
  /-- Nothing is noted about its signature. -/
  signature : (bindSignature t.className t.method).notes = []
  /-- Its body has a syntax tree. -/
  parsed : (parse t.method.body).errors = []
  /-- Nothing is noted about the statements. -/
  bodyClean : t.bodyNoted.notes = []
  /-- A result that is owed is given. -/
  exits : t.surroundings.method.returns ≠ .void → anyAlwaysExits t.bound.body = true

end Site

/-- The site of a method in a class, both by position. -/
def siteIn (u : CompileUnit) (classIndex : Nat) (c : Namespace × Class) (m : Method) : Site :=
  let fullName := qualify c.1.name c.2.name
  ⟨⟨u.classes.map classSignatureOf, c.1.imports, classIndex, c.1.name, signatureOf fullName m⟩,
    fullName, m⟩

/-- The method at a position in the class at a position. -/
def site? (u : CompileUnit) (classIndex methodIndex : Nat) : Option Site := do
  let c ← u.classes[classIndex]?
  let m ← c.2.methods[methodIndex]?
  some (siteIn u classIndex c m)

theorem site?_eq_some {u : CompileUnit} {ci mi : Nat} {t : Site} (h : site? u ci mi = some t) :
    ∃ c m, u.classes[ci]? = some c ∧ c.2.methods[mi]? = some m ∧ t = siteIn u ci c m := by
  rw [site?, Option.bind_eq_bind, Option.bind_eq_some_iff] at h
  obtain ⟨c, hc, h⟩ := h
  rw [Option.bind_eq_bind, Option.bind_eq_some_iff] at h
  obtain ⟨m, hm, h⟩ := h
  exact ⟨c, m, hc, hm, (Option.some.inj h).symm⟩

theorem surroundings_of_site? {u : CompileUnit} {ci mi : Nat} {t : Site}
    (h : site? u ci mi = some t) : t.surroundings.classes = u.classes.map classSignatureOf := by
  obtain ⟨c, m, -, -, rfl⟩ := site?_eq_some h
  rfl

/-- The signatures that a body can refer to are those of the sites. -/
theorem method_of_signatures {u : CompileUnit} {ci mi : Nat} {c : ClassSignature} {m : Signature}
    (hc : (u.classes.map classSignatureOf)[ci]? = some c) (hm : c.methods[mi]? = some m) :
    ∃ t, site? u ci mi = some t ∧ t.surroundings.method = m := by
  rw [List.getElem?_map, Option.map_eq_some_iff] at hc
  obtain ⟨decl, hdecl, rfl⟩ := hc
  simp only [classSignatureOf, List.getElem?_map, Option.map_eq_some_iff] at hm
  obtain ⟨m', hm', rfl⟩ := hm
  exact ⟨siteIn u ci decl m', by simp [site?, hdecl, hm'], rfl⟩

/-! ## The two passes together -/

/-- What `bindMethod` says of a method, at its site. -/
def Site.bind (t : Site) (name : String) : Noted Diagnostic BoundMethod :=
  bindMethod t.surroundings name t.method

theorem Site.value_bind {t : Site} {name : String} (h : (parse t.method.body).errors = []) :
    (t.bind name).value = t.bound := by
  simp [Site.bind, bindMethod, h, Site.bound, Site.bodyNoted, Site.statements]

theorem Site.accepted_of_bind {t : Site} {name : String}
    (hs : (bindSignature t.className t.method).notes = []) (h : (t.bind name).notes = []) :
    t.Accepted := by
  have hp : (parse t.method.body).errors = [] := by
    by_contra hne
    simp [Site.bind, bindMethod, hne] at h
  simp only [Site.bind, bindMethod, hp, List.isEmpty_nil, if_true, List.append_eq_nil_iff,
    List.map_eq_nil_iff] at h
  refine ⟨hs, hp, h.1, fun hr ↦ ?_⟩
  by_contra hx
  simp only [Site.bound, Site.bodyNoted, Site.statements] at hx
  simp [hr, hx] at h

theorem getElem?_bindClasses (u : CompileUnit) (cs : List (Namespace × Class)) (index i : Nat) :
    (bindClasses (u.classes.map classSignatureOf) index (cs.map classSignatureOf) cs).value[i]? =
      cs[i]?.map fun c ↦
        ⟨c.1.name, c.2.name, qualify c.1.name c.2.name, c.2.isStatic,
          c.2.methods.map fun m ↦ ((siteIn u (index + i) c m).bind c.2.name).value⟩ := by
  induction cs generalizing index i with
  | nil => rfl
  | cons c cs ih =>
    simp only [List.map_cons, bindClasses, Noted.value_bind, Noted.value_pure]
    cases i with
    | zero =>
      simp only [classSignatureOf, value_bindMethods, List.getElem?_cons_zero, Option.map_some]
      rfl
    | succ i =>
      simp only [List.getElem?_cons_succ, ih]
      rw [Nat.add_right_comm, Nat.add_assoc]

theorem notes_bindClasses {u : CompileUnit} {cs : List (Namespace × Class)} {index : Nat}
    (h : (bindClasses (u.classes.map classSignatureOf) index (cs.map classSignatureOf) cs).notes =
      []) {i : Nat} {c : Namespace × Class} (hc : cs[i]? = some c) :
    ∀ m ∈ c.2.methods, ((siteIn u (index + i) c m).bind c.2.name).notes = [] := by
  induction cs generalizing index i with
  | nil => simp at hc
  | cons c' cs ih =>
    simp only [List.map_cons, bindClasses, Noted.notes_bind, Noted.notes_pure,
      List.append_eq_nil_iff] at h
    cases i with
    | zero =>
      obtain rfl : c' = c := by simpa using hc
      exact notes_bindMethods h.1
    | succ i =>
      have := ih h.2.1 (by simpa using hc)
      rwa [Nat.add_right_comm, Nat.add_assoc] at this

theorem bind_eq_ok {u : CompileUnit} {refs : List String} {p : BoundProgram}
    (h : bind u refs = .ok p) :
    (bindAllSignatures u).notes = [] ∧
      p.classes = (bindClasses (u.classes.map classSignatureOf) 0
        (u.classes.map classSignatureOf) u.classes).value ∧
      (bindClasses (u.classes.map classSignatureOf) 0
        (u.classes.map classSignatureOf) u.classes).notes = [] := by
  rw [bind] at h
  split at h
  · rename_i hn
    rw [List.isEmpty_iff] at hn
    simp only [bindAll, value_bindAllSignatures, List.append_eq_nil_iff,
      List.map_eq_nil_iff] at hn
    cases h
    exact ⟨hn.1.2, by simp only [bindAll, value_bindAllSignatures], hn.2⟩
  · exact absurd h (by simp)

theorem bind_of_clean {u : CompileUnit} {refs : List String}
    (h : (bindAll u refs).notes.isEmpty = true) : bind u refs = .ok (bindAll u refs).value :=
  if_pos h

/-- **Every method of a unit that is bound is accepted.** -/
theorem accepted_of_bind {u : CompileUnit} {refs : List String} {p : BoundProgram}
    (h : bind u refs = .ok p) {ci mi : Nat} {t : Site} (ht : site? u ci mi = some t) :
    t.Accepted := by
  obtain ⟨hs, -, hb⟩ := bind_eq_ok h
  obtain ⟨c, m, hc, hm, rfl⟩ := site?_eq_some ht
  have hm' : m ∈ c.2.methods := List.mem_of_getElem? hm
  have hclean := notes_bindClasses hb hc m hm'
  rw [Nat.zero_add] at hclean
  exact Site.accepted_of_bind
    (notes_bindClassSignatures hs c (List.mem_of_getElem? hc) m hm') hclean

/-- **The methods of the bound program are those of the unit**, each bound at its own site. -/
theorem method?_of_bind {u : CompileUnit} {refs : List String} {p : BoundProgram}
    (h : bind u refs = .ok p) (ci mi : Nat) :
    p.method? ci mi = (site? u ci mi).map Site.bound := by
  obtain ⟨-, hp, -⟩ := bind_eq_ok h
  have hget := getElem?_bindClasses u u.classes 0 ci
  rw [← hp, Nat.zero_add] at hget
  cases ht : site? u ci mi with
  | some t =>
    have hacc := accepted_of_bind h ht
    obtain ⟨c, m, hc, hm, rfl⟩ := site?_eq_some ht
    simp [BoundProgram.method?, hget, hc, hm, Site.value_bind hacc.parsed]
  | none =>
    cases hc : u.classes[ci]? with
    | none => simp [BoundProgram.method?, hget, hc]
    | some c =>
      have hm : c.2.methods[mi]? = none := by
        cases hm : c.2.methods[mi]? with
        | none => rfl
        | some m => simp [site?, hc, hm] at ht
      simp [BoundProgram.method?, hget, hc, hm]

/-! ## A unit that is accepted -/

/-- A class with a method that counts in a loop and calls another one, leaving out an argument. -/
def smallUnit : CompileUnit :=
  ⟨[⟨"Shop", ["System"], [⟨"Till", .everyone, false,
    [⟨"Add", .owner, false, "int", [⟨"int", "a", none⟩, ⟨"int", "b", some "1"⟩], "return a + b;"⟩,
      ⟨"Main", .everyone, false, "int", [],
        "var sum = 0; while (sum < 3) { int next = Add(sum); sum += next; } return sum;"⟩
    ]⟩]⟩]⟩

theorem bind_smallUnit : bind smallUnit [] = .ok (bindAll smallUnit []).value :=
  bind_of_clean (by decide +kernel)

end Dossier.Script
