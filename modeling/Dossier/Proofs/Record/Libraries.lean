import Dossier.Proofs.Document.Json
import Dossier.Record.Decode
import Mathlib.Data.List.Forall2
import Mathlib.Data.List.Nodup

/-!
# The libraries that carry records

How JSON is written and read, and what is made of a declaration, is the business of libraries.  This
file says what is asked of them, and shows that `Document.toJson`, `Format.decode` and the functions
on declarations do it.

* A `JsonLibrary` is `Faithful` if it writes documents and reads from the text what a reader of
  documents makes of the document.  Numbers are not spoken of, since no field holds one, nor are
  documents that are nested deeper than libraries read them.
* `Derived` functions follow their declarations (`Derived.Follows`): there is one law for each type,
  in each direction, one for what is written of a record and one for what is read.  The latter
  speaks of tables that give some of the fields, in any order (`Derived.Gives`).
* `json_faithful` and `derived_follows` are about the functions of this project.
-/

set_option autoImplicit false

namespace Dossier

/-- A document without numbers that is nested at most so deep and well-formed, and whose tables name
all their members differently. -/
inductive Document.IsPlain : Nat → Document → Prop
  | null (n : Nat) : IsPlain n .null
  | bool (n : Nat) (b : Bool) : IsPlain n (.bool b)
  | string (n : Nat) (s : String) : IsPlain n (.string s)
  | list {n : Nat} {ds : List Document} :
    (∀ d ∈ ds, IsPlain n d) → IsPlain (n + 1) (.list ds true)
  | table {n : Nat} {ms : List (String × Document)} :
    (ms.map fun m ↦ m.1).Nodup → (∀ m ∈ ms, IsPlain n m.2) → IsPlain (n + 1) (.ofMembers ms)

/-- A library for JSON. -/
structure JsonLibrary (ε : Type) where
  /-- The text of a document. -/
  write : Document → Except ε String
  /-- What a reader of documents makes of a text. -/
  read {α : Type} : (Document → Except ε α) → String → Except ε α

/-- The depth to which JSON can be relied on to be read. -/
def JsonLibrary.depthLimit : Nat := 127

/-- Documents are written, and read as they were. -/
def JsonLibrary.Faithful {ε : Type} (json : JsonLibrary ε) : Prop :=
  ∀ {d : Document}, Document.IsPlain depthLimit d → ∃ text, json.write d = .ok text ∧
    ∀ {α : Type} (value : Document → Except ε α), json.read value text = value d

/-- The functions that a library derives from types and declarations. -/
structure Derived (ε : Type) where
  /-- The document of a value. -/
  ofValue : (t : FieldType) → t.Val → Document
  /-- The value of a document. -/
  value : (t : FieldType) → Document → Except ε t.Val
  /-- The document of a record. -/
  ofRecord {ρ : Type} : Declaration ρ → ρ → Document
  /-- The record of a document. -/
  record {ρ : Type} : Declaration ρ → Document → Except ε ρ

/-- The declaration describes records: its fields have different names, they can be set one without
the other, and there is nothing but them in a record. -/
structure Declaration.Describes {ρ : Type} (D : Declaration ρ) : Prop where
  nodup : D.names.Nodup
  get_set : ∀ f ∈ D.fields, ∀ a r, f.get (f.set a r) = a
  get_set_of_ne : ∀ f ∈ D.fields, ∀ g ∈ D.fields, f.name ≠ g.name →
    ∀ a r, f.get (g.set a r) = f.get r
  ext : ∀ r r', (∀ f ∈ D.fields, f.get r = f.get r') → r = r'

namespace Derived

variable {ε ρ : Type}

/-- The members of a table give this value for a field: its document is read as that, or there is
none and it is the default. -/
def Gives (derived : Derived ε) (ms : List (String × Document)) (f : RecordField ρ)
    (a : f.type.Val) : Prop :=
  (∀ d, (f.name, d) ∈ ms → derived.value f.type d = .ok a) ∧
    (f.name ∉ ms.map (fun m ↦ m.1) → f.default? = some a)

/-- A table gives one value at most. -/
theorem Gives.unique {derived : Derived ε} {ms : List (String × Document)} {f : RecordField ρ}
    {a b : f.type.Val} (ha : derived.Gives ms f a) (hb : derived.Gives ms f b) : a = b := by
  by_cases hmem : f.name ∈ ms.map fun m ↦ m.1
  · obtain ⟨⟨name, d⟩, hd, rfl⟩ := List.mem_map.1 hmem
    exact Except.ok.inj ((ha.1 d hd).symm.trans (hb.1 d hd))
  · exact Option.some.inj ((ha.2 hmem).symm.trans (hb.2 hmem))

/-- The members for a record: its fields in their order, without those whose value is omitted. -/
def members (derived : Derived ε) (D : Declaration ρ) (r : ρ) : List (String × Document) :=
  (D.fields.filter fun f ↦ !f.isOmitted (f.get r)).map fun f ↦
    (f.name, derived.ofValue f.type (f.get r))

/-- What is derived follows the types and the declarations. -/
structure Follows (derived : Derived ε) : Prop where
  /-- Texts are strings. -/
  ofValue_text : ∀ s, derived.ofValue .text s = .string s
  value_text : ∀ s, derived.value .text (.string s) = .ok s
  ofValue_flag : ∀ b, derived.ofValue .flag b = .bool b
  value_flag : ∀ b, derived.value .flag (.bool b) = .ok b
  /-- A visibility is made a text and is made of one. -/
  ofValue_access : ∀ v : Visibility, derived.ofValue .access v = derived.ofValue .text v.word
  value_access : ∀ d s v, derived.value .text d = .ok s → Visibility.ofWord? s = some v →
    derived.value .access d = .ok v
  /-- Lists go item by item. -/
  ofValue_list : ∀ (item : FieldType) (as : List item.Val),
    derived.ofValue (.list item) as = .list (as.map (derived.ofValue item)) true
  value_list : ∀ (item : FieldType) ds (as : List item.Val),
    List.Forall₂ (fun d a ↦ derived.value item d = .ok a) ds as →
      derived.value (.list item) (.list ds true) = .ok as
  /-- Null says that there is no value. -/
  ofValue_none : ∀ t : FieldType, derived.ofValue (.optional t) none = .null
  value_null : ∀ t : FieldType, derived.value (.optional t) .null = .ok none
  ofValue_some : ∀ (t : FieldType) (a : t.Val), derived.ofValue (.optional t) (some a) =
    derived.ofValue t a
  value_some : ∀ (t : FieldType) d (a : t.Val), d ≠ .null → derived.value t d = .ok a →
    derived.value (.optional t) d = .ok (some a)
  /-- A record is the table of its members. -/
  ofRecord_eq : ∀ {ρ : Type} (D : Declaration ρ) (r : ρ),
    derived.ofRecord D r = .ofMembers (derived.members D r)
  /-- Of a table that gives a value for every field, the record with these values is read. -/
  record_eq : ∀ {ρ : Type} {D : Declaration ρ}, D.Describes → ∀ ms : List (String × Document),
    (ms.map fun m ↦ m.1).Nodup → (∀ m ∈ ms, m.1 ∈ D.names) →
    (∀ f ∈ D.fields, ∃ a, derived.Gives ms f a) →
      ∃ r, derived.record D (.ofMembers ms) = .ok r ∧
        ∀ f ∈ D.fields, derived.Gives ms f (f.get r)

end Derived

/-! ## The libraries of this project -/

/-- JSON is written and read by the functions on documents. -/
def Json.library : JsonLibrary Reason where
  write d := .ok d.toJson
  read := Format.json.decode

/-- Records are written and read by the functions on declarations. -/
def Declaration.derived : Derived Reason where
  ofValue := FieldType.toDocument
  value := FieldType.ofDocument
  ofRecord := toDocument
  record := ofDocument

theorem Document.IsPlain.readsBack {n : Nat} {d : Document} (h : d.IsPlain n) :
    Json.ReadsBack d := by
  induction h with
  | null => exact Json.readsBack_null
  | bool _ b => exact Json.readsBack_bool b
  | string _ s => exact Json.readsBack_string s
  | list _ ih => exact Json.readsBack_list ih
  | table _ _ ih => exact Json.readsBack_ofMembers ih

/-- **JSON that is written is read back**, by any reader of documents. -/
theorem json_faithful : Json.library.Faithful := by
  intro d h
  refine ⟨d.toJson, rfl, fun value ↦ ?_⟩
  change Format.json.decode value d.toJson = value d
  rw [Format.decode, Document.ofJson_toJson h.readsBack]
  dsimp only
  cases hvalue : value d <;> rfl

namespace Decode

variable {ρ : Type}

/-- A field is found by its name, if no other one has it. -/
theorem find?_eq_of_mem {fields : List (RecordField ρ)}
    (hnodup : (fields.map fun f ↦ f.name).Nodup) {f : RecordField ρ} (hf : f ∈ fields) :
    fields.find? (fun g ↦ g.name == f.name) = some f := by
  induction fields with
  | nil => cases hf
  | cons g fields ih =>
    obtain ⟨hg, hnodup⟩ := List.nodup_cons.1 hnodup
    rcases List.mem_cons.1 hf with rfl | hf
    · exact List.find?_cons_of_pos (by simp)
    · have hne : g.name ≠ f.name := fun h ↦ hg (List.mem_map.2 ⟨f, hf, h.symm⟩)
      rw [List.find?_cons_of_neg (by simpa using hne), ih hnodup hf]

/-- The members of a table are taken into a record: the fields that they name have their values, and
the others are as they were. -/
theorem members_eq {D : Declaration ρ} (hD : D.Describes) (ms : List (String × Document))
    (hnodup : (ms.map fun m ↦ m.1).Nodup)
    (hvalue : ∀ m ∈ ms, ∃ f ∈ D.fields, f.name = m.1 ∧ ∃ a, f.type.ofDocument m.2 = .ok a)
    (seen : List String) (hseen : ∀ m ∈ ms, m.1 ∉ seen) (r : ρ) :
    ∃ r', members D.fields seen r (ms.map fun m ↦ (some m.1, m.2)) =
        .ok ((ms.map fun m ↦ m.1).reverse ++ seen, r') ∧
      ∀ f ∈ D.fields, (∀ d, (f.name, d) ∈ ms → f.type.ofDocument d = .ok (f.get r')) ∧
        (f.name ∉ ms.map (fun m ↦ m.1) → f.get r' = f.get r) := by
  induction ms generalizing seen r with
  | nil => exact ⟨r, rfl, fun f _ ↦ ⟨by simp, fun _ ↦ rfl⟩⟩
  | cons m ms ih =>
    obtain ⟨hnew, hnodup⟩ := List.nodup_cons.1 hnodup
    obtain ⟨⟨g, hg, hname, a, ha⟩, hvalue⟩ := List.forall_mem_cons.1 hvalue
    obtain ⟨hm, hseen⟩ := List.forall_mem_cons.1 hseen
    have hseen' : ∀ m' ∈ ms, m'.1 ∉ m.1 :: seen := by
      intro m' hm' hmem
      rcases List.mem_cons.1 hmem with h | h
      · exact hnew (List.mem_map.2 ⟨m', hm', h⟩)
      · exact hseen m' hm' h
    obtain ⟨r', hmembers, hr'⟩ := ih hnodup hvalue (m.1 :: seen) hseen' (g.set a r)
    refine ⟨r', ?_, fun f hf ↦ ?_⟩
    · rw [List.map_cons, members, ← hname, find?_eq_of_mem hD.nodup hg, hname]
      simp only [List.contains_iff_mem, hm, if_false, put, ha, Except.map, bind, Except.bind,
        hmembers, List.map_cons, List.reverse_cons, List.append_assoc, List.singleton_append]
    · by_cases hfg : f.name = g.name
      · obtain rfl : f = g := List.inj_on_of_nodup_map hD.nodup hf hg hfg
        have hget : f.get r' = a :=
          ((hr' f hf).2 (by rwa [hname])).trans (hD.get_set f hf a r)
        refine ⟨fun d hd ↦ ?_, fun h ↦ absurd (hname ▸ List.mem_cons_self ..) h⟩
        rcases List.mem_cons.1 hd with rfl | hd
        · rw [hget, ha]
        · exact absurd (List.mem_map.2 ⟨_, hd, hname⟩) hnew
      · refine ⟨fun d hd ↦ ?_, fun h ↦ ?_⟩
        · rcases List.mem_cons.1 hd with rfl | hd
          · exact absurd hname.symm hfg
          · exact (hr' f hf).1 d hd
        · rw [List.map_cons, List.mem_cons, not_or] at h
          rw [(hr' f hf).2 h.2, hD.get_set_of_ne f hf g hg hfg]

/-- The fields that were not given have their defaults, and those that were given are as they
were. -/
theorem defaults_eq {D : Declaration ρ} (hD : D.Describes) (seen : List String)
    {fs : List (RecordField ρ)} (hfs : fs ⊆ D.fields) (hnodup : (fs.map fun f ↦ f.name).Nodup)
    (hdefault : ∀ f ∈ fs, f.name ∉ seen → ∃ a, f.default? = some a) (r : ρ) :
    ∃ r', defaults seen fs r = .ok r' ∧
      (∀ f ∈ fs, f.name ∉ seen → f.default? = some (f.get r')) ∧
      ∀ f ∈ D.fields, f.name ∈ seen ∨ f.name ∉ fs.map (fun f ↦ f.name) → f.get r' = f.get r := by
  induction fs generalizing r with
  | nil => exact ⟨r, rfl, by simp, fun _ _ _ ↦ rfl⟩
  | cons g fs ih =>
    obtain ⟨hg, hfs⟩ := List.cons_subset.1 hfs
    obtain ⟨hnew, hnodup⟩ := List.nodup_cons.1 hnodup
    obtain ⟨hdefault, hdefaults⟩ := List.forall_mem_cons.1 hdefault
    by_cases hseen : g.name ∈ seen
    · obtain ⟨r', hr', hfields, hkept⟩ := ih hfs hnodup hdefaults r
      refine ⟨r', ?_, List.forall_mem_cons.2 ⟨fun h ↦ absurd hseen h, hfields⟩, fun f hf h ↦ ?_⟩
      · rw [defaults, if_pos (by simpa using hseen), hr']
      · refine hkept f hf (h.imp_right fun h ↦ ?_)
        rw [List.map_cons, List.mem_cons, not_or] at h
        exact h.2
    · obtain ⟨a, ha⟩ := hdefault hseen
      obtain ⟨r', hr', hfields, hkept⟩ := ih hfs hnodup hdefaults (g.set a r)
      refine ⟨r', ?_, List.forall_mem_cons.2 ⟨fun _ ↦ ?_, hfields⟩, fun f hf h ↦ ?_⟩
      · rw [defaults, if_neg (by simpa using hseen), ha]
        exact hr'
      · rw [hkept g hg (.inr hnew), hD.get_set g hg, ha]
      · have hne : f.name ≠ g.name := by
          rintro heq
          rcases h with h | h
          · exact hseen (heq ▸ h)
          · exact h (heq ▸ List.mem_cons_self ..)
        rw [hkept f hf (h.imp_right fun h ↦ fun hmem ↦ h (List.mem_cons_of_mem _ hmem)),
          hD.get_set_of_ne f hf g hg hne]

/-- The items of a list are read one by one. -/
theorem each_eq {α : Type} {value : Document → Except Reason α} {ds : List Document} {as : List α}
    (h : List.Forall₂ (fun d a ↦ value d = .ok a) ds as) : each value true ds = .ok as := by
  induction h with
  | nil => rfl
  | cons hd _ ih =>
    rw [each, hd, ih]
    rfl

end Decode

open Decode in
/-- **The functions on declarations follow them.** -/
theorem derived_follows : Declaration.derived.Follows where
  ofValue_text _ := rfl
  value_text _ := rfl
  ofValue_flag _ := rfl
  value_flag _ := rfl
  ofValue_access _ := rfl
  value_access d s v hd hv := by
    have htext : text d = .ok s := hd
    change access d = .ok v
    rw [access, htext]
    simp only [bind, Except.bind, hv]
  ofValue_list _ _ := rfl
  value_list _ _ _ h := each_eq h
  ofValue_none _ := rfl
  value_null _ := rfl
  ofValue_some _ _ := rfl
  value_some t d a hd ha := by
    have hvalue : t.ofDocument d = .ok a := ha
    change orNull t.ofDocument d = .ok (some a)
    rw [orNull]
    · rw [hvalue]
      rfl
    · exact hd
  ofRecord_eq _ _ := rfl
  record_eq {ρ D} hD ms hnodup hnames hgives := by
    have hvalue : ∀ m ∈ ms, ∃ f ∈ D.fields, f.name = m.1 ∧ ∃ a, f.type.ofDocument m.2 = .ok a := by
      rintro ⟨name, d⟩ hm
      obtain ⟨f, hf, hname⟩ := List.mem_map.1 (hnames _ hm)
      obtain ⟨a, ha, -⟩ := hgives f hf
      exact ⟨f, hf, hname, a, ha d (hname ▸ hm)⟩
    obtain ⟨r₁, hmembers, hr₁⟩ := members_eq hD ms hnodup hvalue [] (by simp) D.blank
    have hdefault : ∀ f ∈ D.fields, f.name ∉ (ms.map fun m ↦ m.1).reverse →
        ∃ a, f.default? = some a := by
      intro f hf h
      obtain ⟨a, -, ha⟩ := hgives f hf
      exact ⟨a, ha (by simpa using h)⟩
    obtain ⟨r, hdefaults, hfields, hkept⟩ :=
      defaults_eq hD (ms.map fun m ↦ m.1).reverse (List.Subset.refl _) hD.nodup hdefault r₁
    refine ⟨r, ?_, fun f hf ↦ ⟨fun d hd ↦ ?_, fun h ↦ hfields f hf (by simpa using h)⟩⟩
    · change D.ofDocument (.table (ms.map fun m ↦ (some m.1, m.2)) true) = .ok r
      rw [Declaration.ofDocument]
      simp only [hmembers, List.append_nil, bind, Except.bind, if_true, hdefaults]
    · rw [hkept f hf (.inl (List.mem_reverse.2 (List.mem_map.2 ⟨_, hd, rfl⟩)))]
      exact (hr₁ f hf).1 d hd

end Dossier
