import Dossier.Proofs.Record.Libraries
import Dossier.Settings

/-!
# Records survive their files

A record that is written as JSON is read back as it was, and so are settings, whatever libraries
carry them.

* `Declaration.Keeps` says of a declaration that nothing is lost by it: what is omitted comes back as
  the default, and no value is taken for the lack of one.  The declarations of all kinds of records
  and of settings have this property.
* `Derived.Follows.value_ofValue` is about the values of fields, by induction on their types, and
  `Derived.Follows.record_ofRecord` about records.
* `records_read_back` is the result, and `Declaration.Survives.decode_eq` is what it means for the
  libraries of this project; `Store.insertText_toJson` says so of what is inserted into a store.
-/

set_option autoImplicit false

namespace Dossier

/-! ## Values -/

namespace FieldType

/-- Is null a value of the type? -/
def isOptional : FieldType → Bool
  | optional _ => true
  | _ => false

/-- Does every null in a value stand for one thing only? -/
def isDistinct : FieldType → Bool
  | list item => item.isDistinct
  | optional value => !value.isOptional && value.isDistinct
  | _ => true

/-- How deep lists are nested. -/
def depth : FieldType → Nat
  | list item => item.depth + 1
  | optional value => value.depth
  | _ => 0

end FieldType

namespace Derived.Follows

variable {ε ρ : Type} {derived : Derived ε} (h : derived.Follows)

include h

theorem ofValue_ne_null {t : FieldType} (ht : t.isOptional = false) (a : t.Val) :
    derived.ofValue t a ≠ .null := by
  cases t with
  | text => simp [h.ofValue_text]
  | flag => simp [h.ofValue_flag]
  | access => simp [h.ofValue_access, h.ofValue_text]
  | list item => simp [h.ofValue_list]
  | optional value => cases ht

/-- **The value of a field is read back.** -/
theorem value_ofValue {t : FieldType} (ht : t.isDistinct = true) (a : t.Val) :
    derived.value t (derived.ofValue t a) = .ok a := by
  induction t with
  | text => rw [h.ofValue_text, h.value_text]
  | flag => rw [h.ofValue_flag, h.value_flag]
  | access =>
    refine h.value_access _ _ a ?_ (Visibility.ofWord?_word a)
    rw [h.ofValue_access, h.ofValue_text, h.value_text]
  | list item ih =>
    rw [h.ofValue_list]
    refine h.value_list item _ a ?_
    rw [List.forall₂_map_left_iff]
    exact List.forall₂_same.2 fun a _ ↦ ih ht a
  | optional value ih =>
    obtain ⟨hnull, ht⟩ : value.isOptional = false ∧ value.isDistinct = true := by
      simpa [FieldType.isDistinct] using ht
    cases a with
    | none => rw [h.ofValue_none, h.value_null]
    | some a =>
      rw [h.ofValue_some]
      exact h.value_some value _ a (h.ofValue_ne_null hnull a) (ih ht a)

theorem isPlain_ofValue {t : FieldType} {n : Nat} (ht : t.depth ≤ n) (a : t.Val) :
    (derived.ofValue t a).IsPlain n := by
  induction t generalizing n with
  | text =>
    rw [h.ofValue_text]
    exact .string n a
  | flag =>
    rw [h.ofValue_flag]
    exact .bool n a
  | access =>
    rw [h.ofValue_access, h.ofValue_text]
    exact .string n _
  | list item ih =>
    cases n with
    | zero => cases ht
    | succ n =>
      rw [h.ofValue_list]
      exact .list (List.forall_mem_map.2 fun a _ ↦ ih (Nat.le_of_succ_le_succ ht) a)
  | optional value ih =>
    cases a with
    | none =>
      rw [h.ofValue_none]
      exact .null n
    | some a =>
      rw [h.ofValue_some]
      exact ih ht a

end Derived.Follows

/-! ## Records -/

/-- Nothing is lost by the declaration: its fields make the record, none of their values is taken
for another one, and what is omitted is what a reader assumes. -/
structure Declaration.Keeps {ρ : Type} (D : Declaration ρ) : Prop extends D.Describes where
  distinct : ∀ f ∈ D.fields, f.type.isDistinct = true
  shallow : ∀ f ∈ D.fields, f.type.depth < JsonLibrary.depthLimit
  omitted : ∀ f ∈ D.fields, ∀ a, f.isOmitted a = true → f.default? = some a

namespace Derived.Follows

variable {ε ρ : Type} {derived : Derived ε} (h : derived.Follows) {D : Declaration ρ} (r : ρ)

theorem mem_members {m : String × Document} : m ∈ derived.members D r ↔
    ∃ f ∈ D.fields, f.isOmitted (f.get r) = false ∧
      (f.name, derived.ofValue f.type (f.get r)) = m := by
  simp [members, and_assoc]

theorem nodup_members (hD : D.Keeps) : ((derived.members D r).map fun m ↦ m.1).Nodup := by
  rw [members, List.map_map]
  exact hD.nodup.sublist (List.filter_sublist.map _)

include h

/-- The members for a record give its values: those that are written, and the defaults for those
that are omitted. -/
theorem gives_members (hD : D.Keeps) {f : RecordField ρ} (hf : f ∈ D.fields) :
    derived.Gives (derived.members D r) f (f.get r) := by
  refine ⟨fun d hd ↦ ?_, fun hnotin ↦ hD.omitted f hf _ ?_⟩
  · obtain ⟨g, hg, -, heq⟩ := (mem_members r).1 hd
    obtain rfl : g = f := List.inj_on_of_nodup_map hD.nodup hg hf (congrArg Prod.fst heq)
    obtain rfl : derived.ofValue g.type (g.get r) = d := congrArg Prod.snd heq
    exact h.value_ofValue (hD.distinct g hg) _
  · by_contra hwritten
    refine hnotin (List.mem_map.2 ⟨_, (mem_members r).2 ⟨f, hf, ?_, rfl⟩, rfl⟩)
    simpa using hwritten

/-- **A record is made again from its document.** -/
theorem record_ofRecord (hD : D.Keeps) : derived.record D (derived.ofRecord D r) = .ok r := by
  have hnames : ∀ m ∈ derived.members D r, m.1 ∈ D.names := by
    intro m hm
    obtain ⟨f, hf, -, rfl⟩ := (mem_members r).1 hm
    exact List.mem_map.2 ⟨f, hf, rfl⟩
  have hgives := fun f hf ↦ h.gives_members r hD (f := f) hf
  obtain ⟨r', hr', hgives'⟩ := h.record_eq hD.toDescribes _ (nodup_members r hD) hnames
    fun f hf ↦ ⟨f.get r, hgives f hf⟩
  obtain rfl : r' = r := hD.ext r' r fun f hf ↦ (hgives' f hf).unique (hgives f hf)
  rw [h.ofRecord_eq, hr']

theorem isPlain_ofRecord (hD : D.Keeps) :
    (derived.ofRecord D r).IsPlain JsonLibrary.depthLimit := by
  rw [h.ofRecord_eq]
  refine .table (nodup_members r hD) fun m hm ↦ ?_
  obtain ⟨f, hf, -, rfl⟩ := (mem_members r).1 hm
  exact h.isPlain_ofValue (Nat.le_of_lt_succ (hD.shallow f hf)) _

end Derived.Follows

/-- Every record is written, and read from what was written. -/
def Declaration.Survives {ε ρ : Type} (D : Declaration ρ) (json : JsonLibrary ε)
    (derived : Derived ε) : Prop :=
  ∀ r : ρ, ∃ text, json.write (derived.ofRecord D r) = .ok text ∧
    json.read (derived.record D) text = .ok r

/-- **A record survives its file**, if nothing is lost by its declaration. -/
theorem Declaration.Keeps.survives {ε ρ : Type} {D : Declaration ρ} (hD : D.Keeps)
    {json : JsonLibrary ε} {derived : Derived ε} (hjson : json.Faithful)
    (hderived : derived.Follows) : D.Survives json derived := by
  intro r
  obtain ⟨text, hwrite, hread⟩ := hjson (hderived.isPlain_ofRecord r hD)
  exact ⟨text, hwrite, (hread _).trans (hderived.record_ofRecord r hD)⟩

/-! ## The kinds of records -/

theorem MethodRecord.keeps : MethodRecord.declaration.Keeps where
  nodup := by decide
  get_set := by simp [declaration]
  get_set_of_ne := by simp [declaration]
  ext := by
    rintro ⟨⟩ ⟨⟩
    simp [declaration]
  distinct := by decide
  shallow := by decide
  omitted := by simp [declaration]

theorem ClassRecord.keeps : ClassRecord.declaration.Keeps where
  nodup := by decide
  get_set := by simp [declaration]
  get_set_of_ne := by simp [declaration]
  ext := by
    rintro ⟨⟩ ⟨⟩
    simp [declaration]
  distinct := by decide
  shallow := by decide
  omitted := by simp [declaration]

theorem NamespaceRecord.keeps : NamespaceRecord.declaration.Keeps where
  nodup := by decide
  get_set := by simp [declaration]
  get_set_of_ne := by simp [declaration]
  ext := by
    rintro ⟨⟩ ⟨⟩
    simp [declaration]
  distinct := by decide
  shallow := by decide
  omitted := by simp [declaration]

theorem Settings.keeps : Settings.declaration.Keeps where
  nodup := by decide
  get_set := by simp [declaration]
  get_set_of_ne := by simp [declaration]
  ext := by
    rintro ⟨⟩ ⟨⟩
    simp [declaration]
  distinct := by decide
  shallow := by decide
  omitted := by simp [declaration]

/-- What survives with the libraries of this project. -/
theorem Declaration.Survives.decode_eq {ρ : Type} {D : Declaration ρ}
    (h : D.Survives Json.library Declaration.derived) (r : ρ) :
    Format.json.decode D.ofDocument (D.toDocument r).toJson = .ok r := by
  obtain ⟨text, hwrite, hread⟩ := h r
  have htext : (D.toDocument r).toJson = text := Except.ok.inj hwrite
  rw [htext]
  exact hread

/-- **Records and settings survive their files**: what a library writes for one is read back as it
was, whatever it holds, if JSON is carried faithfully and what is derived follows the
declarations. -/
theorem records_read_back {ε : Type} {json : JsonLibrary ε} {derived : Derived ε}
    (hjson : json.Faithful) (hderived : derived.Follows) :
    MethodRecord.declaration.Survives json derived ∧
    ClassRecord.declaration.Survives json derived ∧
    NamespaceRecord.declaration.Survives json derived ∧
    Settings.declaration.Survives json derived :=
  ⟨MethodRecord.keeps.survives hjson hderived, ClassRecord.keeps.survives hjson hderived,
    NamespaceRecord.keeps.survives hjson hderived, Settings.keeps.survives hjson hderived⟩

/-- A method whose second parameter alone has a default, with signs in its texts that JSON escapes. -/
def greetRecord : MethodRecord where
  name := "Grüßen"
  owner := "Acme.Widget"
  access := .heirs
  returns := "string"
  paramTypes := ["string", "string"]
  paramNames := ["name", "end"]
  paramDefaults := [none, some "\"!\""]
  code := "return \"\\t\" + name\n  + end;"

/-- The libraries of this project carry it. -/
theorem greetRecord_reads_back :
    Json.library.Faithful ∧ Declaration.derived.Follows ∧
      Format.json.decode MethodRecord.declaration.ofDocument
        (MethodRecord.declaration.toDocument greetRecord).toJson = .ok greetRecord :=
  ⟨json_faithful, derived_follows,
    (records_read_back json_faithful derived_follows).1.decode_eq greetRecord⟩

/-- A record that is inserted from what was written for it is the one that was written. -/
theorem Store.insertText_toJson (s : Store) :
    (∀ r : MethodRecord,
      s.insertText .ofMethod .json r.toDocument.toJson = .ok (s.addMethod r)) ∧
    (∀ r : ClassRecord, s.insertText .ofClass .json r.toDocument.toJson = .ok (s.addClass r)) ∧
    ∀ r : NamespaceRecord,
      s.insertText .ofNamespace .json r.toDocument.toJson = .ok (s.addNamespace r) := by
  have hmethod := (MethodRecord.keeps.survives json_faithful derived_follows).decode_eq
  have hclass := (ClassRecord.keeps.survives json_faithful derived_follows).decode_eq
  have hnamespace := (NamespaceRecord.keeps.survives json_faithful derived_follows).decode_eq
  refine ⟨fun r ↦ ?_, fun r ↦ ?_, fun r ↦ ?_⟩
  · rw [insertText, show MethodRecord.ofDocument = MethodRecord.declaration.ofDocument from rfl,
      MethodRecord.toDocument, hmethod]
    rfl
  · rw [insertText, show ClassRecord.ofDocument = ClassRecord.declaration.ofDocument from rfl,
      ClassRecord.toDocument, hclass]
    rfl
  · rw [insertText, show NamespaceRecord.ofDocument = NamespaceRecord.declaration.ofDocument from rfl,
      NamespaceRecord.toDocument, hnamespace]
    rfl

end Dossier
