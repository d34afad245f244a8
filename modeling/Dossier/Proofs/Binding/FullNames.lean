import Dossier.Assembly
import Dossier.Proofs.Binding.Accepted
import Dossier.Proofs.Binding.Quoted

/-!
# Classes are found by their full names

A unit cuts a text at each of its points to find a class, and a bound program compares the text with
the full names that were composed for its classes.  Where names have points in them, one text can be
cut in several ways.

* `CompileUnit.mem_cuts_iff`: the cuts of a text are all ways to compose it of two names.
* `nodup_fullNames_of_bind`: in a unit that is bound, no two classes have one full name, so that at
  most one of the cuts leads to a class.
* `CompileUnit.findClass?_eq_some_iff` and `findClass?_of_bind` say what the two look-ups find, and
  `lookups_agree` that it is the same class.

That no two namespaces have one name is true of all units that are made of records
(`CompileUnit.tells_of_place`).
-/

set_option autoImplicit false

namespace Dossier

namespace CompileUnit

variable {u : CompileUnit} {ns : Namespace} {c : Class}

/-- The full names of the classes, in the order of their declarations. -/
def fullNames (u : CompileUnit) : List String := u.classes.map fun c ↦ qualify c.1.name c.2.name

theorem mem_classes : (ns, c) ∈ u.classes ↔ ns ∈ u.namespaces ∧ c ∈ ns.classes := by
  simp only [classes, List.mem_flatMap, List.mem_map, Prod.mk.injEq]
  constructor
  · rintro ⟨ns', hns, c', hc, rfl, rfl⟩
    exact ⟨hns, hc⟩
  · rintro ⟨hns, hc⟩
    exact ⟨ns, hns, c, hc, rfl, rfl⟩

/-! ## Cutting a text -/

/-- A cut is at the first character, or it is a later one. -/
theorem mem_cuts_cons {owner name cs : List Char} {c : Char} : (owner, name) ∈ cuts (c :: cs) ↔
    (owner = [] ∧ c = '.' ∧ cs = name) ∨
      ∃ owner', owner = c :: owner' ∧ (owner', name) ∈ cuts cs := by
  rw [cuts]
  by_cases hc : c = '.' <;> simp [hc, eq_comm, and_left_comm]

/-- **The cuts of a text** are all ways to compose it of two names and a point between them. -/
theorem mem_cuts_iff {owner name text : List Char} :
    (owner, name) ∈ cuts text ↔ text = owner ++ '.' :: name := by
  induction text generalizing owner with
  | nil => simp [cuts]
  | cons c cs ih =>
    rw [mem_cuts_cons]
    cases owner with
    | nil => simp
    | cons d owner => simp [ih, eq_comm]

/-! ## What a unit finds -/

/-- What is found is a class of the unit with the full name. -/
theorem mem_of_findClass? {s : String} (h : u.findClass? s = some (ns, c)) :
    (ns, c) ∈ u.classes ∧ qualify ns.name c.name = s := by
  obtain ⟨⟨owner, name⟩, hcut, h⟩ := List.exists_of_findSome?_eq_some h
  simp only [Option.bind_eq_bind, Option.bind_eq_some_iff, find?_name_eq_some_iff,
    Option.some.injEq, Prod.mk.injEq] at h
  obtain ⟨ns', ⟨hns, hnsName⟩, c', ⟨hc, hcName⟩, rfl, rfl⟩ := h
  refine ⟨mem_classes.2 ⟨hns.mem, hc.mem⟩, String.toList_injective ?_⟩
  rw [mem_cuts_iff.1 hcut, hnsName, hcName]
  simp [qualify]

/-- Some class is found by the full name of each, if the namespaces can be told apart: the cut behind
the name of its namespace leads to one. -/
theorem exists_findClass? (hnames : (u.namespaces.map Namespace.name).Nodup)
    (h : (ns, c) ∈ u.classes) : ∃ found, u.findClass? (qualify ns.name c.name) = some found := by
  obtain ⟨hns, hc⟩ := mem_classes.1 h
  have hcut : (ns.name.toList, c.name.toList) ∈ cuts (qualify ns.name c.name).toList := by
    rw [mem_cuts_iff]
    simp [qualify]
  obtain ⟨first, hfirst, hname⟩ :
      ∃ first, FirstNamed Class.name first ns.classes ∧ first.name = c.name :=
    FirstNamed.exists_of_mem hc
  have hfindNs := find?_name_eq_some_iff.2 ⟨FirstNamed.of_nodup hnames hns, rfl⟩
  have hfindClass := find?_name_eq_some_iff.2 ⟨hfirst, hname⟩
  rw [← Option.isSome_iff_exists, findClass?, List.findSome?_isSome_iff]
  refine ⟨_, hcut, ?_⟩
  simp [hfindNs, hfindClass]

/-- **What a unit finds by a text**, if neither two namespaces nor two classes have one name: the class
whose full name it is. -/
theorem findClass?_eq_some_iff (hnames : (u.namespaces.map Namespace.name).Nodup)
    (hfull : u.fullNames.Nodup) {s : String} :
    u.findClass? s = some (ns, c) ↔ (ns, c) ∈ u.classes ∧ qualify ns.name c.name = s := by
  refine ⟨mem_of_findClass?, ?_⟩
  rintro ⟨hmem, rfl⟩
  obtain ⟨⟨ns', c'⟩, hfound⟩ := exists_findClass? hnames hmem
  obtain ⟨hmem', hname⟩ := mem_of_findClass? hfound
  have heq := List.inj_on_of_nodup_map hfull hmem' hmem hname
  rwa [heq] at hfound

end CompileUnit

namespace Script

variable {u : CompileUnit} {refs : List String} {p : BoundProgram}

/-! ## What a bound program finds -/

/-- No full name is noted as one that was there before if all are different. -/
theorem nodup_of_bindClassSignatures {before : List String} {cs : List (Namespace × Class)}
    (h : (bindClassSignatures before cs).notes = []) :
    (cs.map fun c ↦ qualify c.1.name c.2.name).Nodup ∧
      ∀ c ∈ cs, qualify c.1.name c.2.name ∉ before := by
  induction cs generalizing before with
  | nil => simp
  | cons c cs ih =>
    simp only [bindClassSignatures, Noted.notes_bind, Noted.notes_pure, List.append_eq_nil_iff,
      Noted.notes_noteIf, List.contains_eq_mem, decide_eq_false_iff_not] at h
    obtain ⟨hnew, -, hrest, -⟩ := h
    obtain ⟨hnodup, hapart⟩ := ih hrest
    refine ⟨?_, ?_⟩
    · rw [List.map_cons, List.nodup_cons]
      refine ⟨fun hmem ↦ ?_, hnodup⟩
      obtain ⟨d, hd, heq⟩ := List.mem_map.1 hmem
      exact hapart d hd (heq ▸ List.mem_cons_self ..)
    · intro d hd
      rcases List.mem_cons.1 hd with rfl | hd
      · exact hnew
      · exact fun hmem ↦ hapart d hd (List.mem_cons_of_mem _ hmem)

/-- **The full names of a unit that is bound are different.** -/
theorem nodup_fullNames_of_bind (h : bind u refs = .ok p) : u.fullNames.Nodup :=
  (nodup_of_bindClassSignatures (bind_eq_ok h).1).1

/-- The classes of a bound program have the full names of the unit's, position by position. -/
theorem fullNames_of_bind (h : bind u refs = .ok p) :
    p.classes.map BoundClass.fullName = u.fullNames := by
  obtain ⟨-, hclasses, -⟩ := bind_eq_ok h
  refine List.ext_getElem? fun i ↦ ?_
  rw [hclasses, List.getElem?_map, getElem?_bindClasses, CompileUnit.fullNames, List.getElem?_map,
    Option.map_map]
  rfl

/-- An element that occurs once is found where it stands. -/
theorem idxOf?_eq_some_iff_of_nodup {names : List String} (h : names.Nodup) {name : String}
    {i : Nat} : names.idxOf? name = some i ↔ names[i]? = some name := by
  rw [List.idxOf?_eq_some_iff, List.getElem?_eq_some_iff]
  constructor
  · rintro ⟨hi, hname, -⟩
    exact ⟨hi, hname⟩
  · rintro ⟨hi, hname⟩
    refine ⟨hi, hname, fun j hj hother ↦ ?_⟩
    exact Nat.ne_of_lt hj (h.getElem_inj_iff.1 (hother.trans hname.symm))

/-- **What a bound program finds by a text**: the position of the class whose full name it is. -/
theorem findClass?_of_bind (h : bind u refs = .ok p) {s : String} {i : Nat} :
    p.findClass? s = some i ↔
      ∃ ns c, u.classes[i]? = some (ns, c) ∧ qualify ns.name c.name = s := by
  have hfind : p.findClass? s = u.fullNames.idxOf? s := by
    rw [← fullNames_of_bind h, List.idxOf?, List.findIdx?_map]
    rfl
  rw [hfind, idxOf?_eq_some_iff_of_nodup (nodup_fullNames_of_bind h), CompileUnit.fullNames,
    List.getElem?_map, Option.map_eq_some_iff]
  exact Prod.exists

/-! ## The two look-ups -/

/-- **The two look-ups agree.**  By a text a class is found in a unit exactly if one is found in the
program that it is bound to, and an instance is made exactly then.  The one class stands at the
position that is the other, and the text is the name of its namespace, a point and its own name,
whatever points there are in these; and every class is found by this text. -/
theorem lookups_agree (hnames : (u.namespaces.map Namespace.name).Nodup) (h : bind u refs = .ok p)
    (s : String) :
    ((∃ ns c, u.findClass? s = some (ns, c)) ↔ ∃ i, p.findClass? s = some i) ∧
      (∀ name, ((Assembly.ofProgram name p).instance? s).isSome ↔ ∃ i, p.findClass? s = some i) ∧
      ∀ ns c i, u.findClass? s = some (ns, c) ∧ p.findClass? s = some i ↔
        u.classes[i]? = some (ns, c) ∧ s = ns.name ++ "." ++ c.name := by
  have hfull := nodup_fullNames_of_bind h
  have hunit {ns : Namespace} {c : Class} : u.findClass? s = some (ns, c) ↔
      (ns, c) ∈ u.classes ∧ qualify ns.name c.name = s :=
    CompileUnit.findClass?_eq_some_iff hnames hfull
  have hprogram {i : Nat} : p.findClass? s = some i ↔
      ∃ ns c, u.classes[i]? = some (ns, c) ∧ qualify ns.name c.name = s := findClass?_of_bind h
  refine ⟨?_, fun name ↦ ?_, fun ns c i ↦ ?_⟩
  · constructor
    · rintro ⟨ns, c, hfound⟩
      obtain ⟨hmem, hname⟩ := hunit.1 hfound
      obtain ⟨i, hi⟩ := List.mem_iff_getElem?.1 hmem
      exact ⟨i, hprogram.2 ⟨ns, c, hi, hname⟩⟩
    · rintro ⟨i, hfound⟩
      obtain ⟨ns, c, hi, hname⟩ := hprogram.1 hfound
      exact ⟨ns, c, hunit.2 ⟨List.mem_of_getElem? hi, hname⟩⟩
  · rw [Assembly.ofProgram, Option.isSome_map, Option.isSome_iff_exists]
  · constructor
    · rintro ⟨hfound, hindex⟩
      obtain ⟨hmem, rfl⟩ := hunit.1 hfound
      obtain ⟨ns', c', hi, hname⟩ := hprogram.1 hindex
      have heq := List.inj_on_of_nodup_map hfull (List.mem_of_getElem? hi) hmem hname
      exact ⟨heq ▸ hi, rfl⟩
    · rintro ⟨hi, rfl⟩
      exact ⟨hunit.2 ⟨List.mem_of_getElem? hi, rfl⟩, hprogram.2 ⟨ns, c, hi, rfl⟩⟩

/-- A namespace whose name starts with that of another one. -/
def innerNamespace : Namespace := ⟨"Acme.Tools", [], [⟨"Widget", .everyone, true, []⟩]⟩

/-- The two namespaces; the class of the outer one has a point in its name. -/
def dottedUnit : CompileUnit :=
  ⟨[⟨"Acme", [], [⟨"Tools.Saw", .everyone, true, []⟩]⟩, innerNamespace]⟩

theorem bind_dottedUnit : bind dottedUnit [] = .ok (bindAll dottedUnit []).value :=
  bind_of_clean (by decide +kernel)

/-- The first cut of `Acme.Tools.Widget` leads to the first namespace, which has no such class. -/
theorem dottedUnit_lookups_agree :
    (dottedUnit.namespaces.map Namespace.name).Nodup ∧
      bind dottedUnit [] = .ok (bindAll dottedUnit []).value ∧
      dottedUnit.findClass? "Acme.Tools.Widget" =
        some (innerNamespace, ⟨"Widget", .everyone, true, []⟩) ∧
      (bindAll dottedUnit []).value.findClass? "Acme.Tools.Widget" = some 1 := by
  have hnames : (dottedUnit.namespaces.map Namespace.name).Nodup := by decide
  obtain ⟨-, -, hclass⟩ := lookups_agree hnames bind_dottedUnit "Acme.Tools.Widget"
  exact ⟨hnames, bind_dottedUnit, (hclass _ _ 1).2 ⟨rfl, by decide +kernel⟩⟩

end Script

end Dossier
