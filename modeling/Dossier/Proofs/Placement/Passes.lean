import Dossier.Placement
import Mathlib.Data.List.Nodup

/-!
# What the passes of placing come to

Placing goes through the records kind by kind and keeps tables on the way.  Here each pass is summed
up by what it has done to the records of a list, whatever their names; where all owners can be told
apart, the passes together do what selecting records by name does.

* `Table.find?_foldl_alter`: a table that is made element by element has, under a key, what the
  elements with this key make of nothing.
* `Store.conflicts_eq_nil_iff`: there is no conflict exactly if no two namespaces have one name and no
  two classes one full name.
* `Store.sortMethods_eq` and `Store.fill_eq`: what the methods and the classes come to then.
* `Store.place_eq_ok_iff`: placing succeeds exactly then, with `Store.placed`.
-/

set_option autoImplicit false

namespace Dossier

/-! ## Tables that are made element by element -/

namespace Table

variable {κ α β : Type} [DecidableEq κ]

/-- The values are what is found under the keys. -/
theorem values_eq (t : Table κ α) : t.values = t.keys.filterMap t.find? := by
  have h : ∀ e ∈ t.entries, t.find? e.1 = some e.2 := fun e he ↦ mem_entries_iff.1 he
  rw [keys, values, List.filterMap_map]
  exact (List.filterMap_eq_map_iff_forall_eq_some.2 h).symm

/-- A new key is entered behind all others. -/
theorem entries_alter_of_notMem {t : Table κ α} {k : κ} {f : Option α → α} (h : k ∉ t.keys) :
    (t.alter k f).entries = t.entries ++ [(k, f none)] := by
  obtain ⟨es, hes⟩ := t
  simp only [keys, alter] at h ⊢
  clear hes
  induction es with
  | nil => rfl
  | cons e es ih =>
    rw [List.map_cons, List.mem_cons, not_or] at h
    rw [alterEntries, if_neg fun he ↦ h.1 he.symm, ih h.2, List.cons_append]

theorem find?_foldl_alter (key : β → κ) (f : β → Option α → α) (xs : List β) (t : Table κ α)
    (k : κ) :
    (xs.foldl (fun t x ↦ t.alter (key x) (f x)) t).find? k =
      (xs.filter fun x ↦ key x = k).foldl (fun o x ↦ some (f x o)) (t.find? k) := by
  induction xs generalizing t with
  | nil => rfl
  | cons x xs ih =>
    rw [List.foldl_cons, ih, find?_alter]
    by_cases hx : key x = k <;> simp [hx]

/-- Elements whose keys are new are entered one after the other. -/
theorem entries_foldl_insert (key : β → κ) (f : β → α) (xs : List β) (t : Table κ α)
    (h : (t.keys ++ xs.map key).Nodup) :
    (xs.foldl (fun t x ↦ t.insert (key x) (f x)) t).entries =
      t.entries ++ xs.map fun x ↦ (key x, f x) := by
  induction xs generalizing t with
  | nil => simp
  | cons x xs ih =>
    rw [List.map_cons, List.append_cons] at h
    have hx : key x ∉ t.keys := fun hmem ↦
      (List.nodup_append.1 (List.nodup_append.1 h).1).2.2 _ hmem _ (List.mem_singleton.2 rfl) rfl
    rw [List.foldl_cons, ih]
    · rw [insert, entries_alter_of_notMem hx, List.map_cons, ← List.append_cons]
    · rwa [keys_insert, if_neg hx]

end Table

/-! ## Names that occur once -/

/-- Counting up goes on from what was counted before. -/
theorem foldl_count {β : Type} (xs : List β) (o : Option Nat) :
    xs.foldl (fun o _ ↦ some (o.getD 0 + 1)) o =
      if xs = [] then o else some (o.getD 0 + xs.length) := by
  induction xs generalizing o with
  | nil => rfl
  | cons x xs ih =>
    rw [List.foldl_cons, ih]
    by_cases hxs : xs = []
    · simp [hxs]
    · rw [if_neg hxs, if_neg (List.cons_ne_nil x xs), List.length_cons, Option.getD_some,
        Nat.add_assoc, Nat.add_comm 1]

theorem find?_tally (names : List String) (name : String) :
    (tally names).find? name = if name ∈ names then some (names.count name) else none := by
  rw [tally, Table.find?_foldl_alter, foldl_count, Table.find?_empty, Option.getD_none,
    Nat.zero_add]
  have hlength : (names.filter fun x ↦ decide (x = name)).length = names.count name := by
    rw [List.count, List.countP_eq_length_filter]
    congr
  by_cases h : name ∈ names
  · have hne : (names.filter fun x ↦ decide (x = name)) ≠ [] := by
      intro hnil
      exact absurd (List.filter_eq_nil_iff.1 hnil name h) (by simp)
    rw [if_neg hne, if_pos h, hlength]
  · have hnil : (names.filter fun x ↦ decide (x = name)) = [] := by
      rw [List.filter_eq_nil_iff]
      intro x hx
      simpa using ne_of_mem_of_not_mem hx h
    rw [if_pos hnil, if_neg h]

/-- A table that tells how often names occur tells of none that it occurs twice exactly if none
does. -/
theorem filter_counts_eq_nil_iff {α : Type} (t : Table String α) (count : α → Nat)
    (names : List String)
    (h : ∀ name, (t.find? name).map count = if name ∈ names then some (names.count name) else none) :
    (t.entries.filter fun e ↦ 1 < count e.2) = [] ↔ names.Nodup := by
  rw [List.filter_eq_nil_iff, List.nodup_iff_count_le_one]
  constructor
  · intro hall name
    by_cases hmem : name ∈ names
    · have hname := h name
      rw [if_pos hmem, Option.map_eq_some_iff] at hname
      obtain ⟨a, ha, hcount⟩ := hname
      have := hall _ (Table.mem_entries_iff.2 ha)
      simp only [decide_eq_true_eq] at this
      omega
    · rw [List.count_eq_zero_of_not_mem hmem]
      exact Nat.zero_le 1
  · rintro hall ⟨name, a⟩ he
    have hname := h name
    rw [Table.mem_entries_iff.1 he, Option.map_some] at hname
    split at hname
    · have := hall name
      simp only [Option.some.injEq] at hname
      simp only [decide_eq_true_eq]
      omega
    · exact absurd hname (by simp)

namespace Positions

/-- The places of a list, if it has any. -/
def ofList? : List Nat → Option Positions
  | [] => none
  | i :: is => some ⟨i, is⟩

theorem foldl_add {β : Type} (place : β → Nat) (xs : List β) (is : List Nat) :
    xs.foldl (fun o x ↦ some (add (place x) o)) (ofList? is) = ofList? (is ++ xs.map place) := by
  induction xs generalizing is with
  | nil => simp
  | cons x xs ih =>
    have hstep : some (add (place x) (ofList? is)) = ofList? (is ++ [place x]) := by
      cases is <;> rfl
    rw [List.foldl_cons, hstep, ih, List.map_cons, ← List.append_cons]

theorem map_count_ofList? (is : List Nat) :
    (ofList? is).map count = if is.length = 0 then none else some is.length := by
  cases is <;> simp [ofList?, count]

end Positions

namespace Store

variable {s : Store}

/-- All owners can be told apart. -/
structure Distinct (s : Store) : Prop where
  /-- No two namespaces have one name. -/
  namespaces : (s.namespaces.map NamespaceRecord.name).Nodup
  /-- No two classes have one full name. -/
  classes : (s.classes.map ClassRecord.fullName).Nodup

theorem find?_classIndex (s : Store) (name : String) :
    s.classIndex.find? name =
      Positions.ofList? ((s.classes.zipIdx.filter fun x ↦ x.1.fullName = name).map Prod.snd) := by
  have h := Table.find?_foldl_alter (fun x : ClassRecord × Nat ↦ x.1.fullName)
    (fun x ↦ Positions.add x.2) s.classes.zipIdx .empty name
  rw [classIndex, h]
  exact Positions.foldl_add Prod.snd _ []

theorem count_classIndex (s : Store) (name : String) :
    (s.classIndex.find? name).map Positions.count =
      if name ∈ s.classes.map ClassRecord.fullName then
        some ((s.classes.map ClassRecord.fullName).count name) else none := by
  have hlength : ((s.classes.zipIdx.filter fun x ↦ x.1.fullName = name).map Prod.snd).length =
      (s.classes.map ClassRecord.fullName).count name := by
    rw [List.length_map, ← List.countP_eq_length_filter, List.count, List.countP_map]
    conv_rhs => rw [← List.zipIdx_map_fst 0 s.classes, List.countP_map]
    exact List.countP_congr fun x _ ↦ by simp
  simp only [find?_classIndex, Positions.map_count_ofList?, hlength, List.count_eq_zero]
  by_cases h : name ∈ s.classes.map ClassRecord.fullName
  · rw [if_pos h, if_neg (not_not.2 h)]
  · rw [if_neg h, if_pos h]

/-- **There is no conflict exactly if all owners can be told apart.** -/
theorem conflicts_eq_nil_iff (s : Store) : s.conflicts = [] ↔ s.Distinct := by
  have hnamespaces := filter_counts_eq_nil_iff (tally (s.namespaces.map NamespaceRecord.name)) id _
    fun name ↦ by rw [Option.map_id]; exact find?_tally _ name
  have hclasses := filter_counts_eq_nil_iff s.classIndex Positions.count _ s.count_classIndex
  rw [conflicts, List.append_eq_nil_iff, List.map_eq_nil_iff, List.map_eq_nil_iff]
  constructor
  · rintro ⟨hns, hcs⟩
    exact ⟨hnamespaces.1 hns, hclasses.1 hcs⟩
  · rintro ⟨hns, hcs⟩
    exact ⟨hnamespaces.2 hns, hclasses.2 hcs⟩

end Store

/-! ## Methods to classes -/

namespace Sorted

variable {index : Table String Positions}

/-- The class of a method by an index of classes: the place of the first with the name. -/
def target (index : Table String Positions) (m : MethodRecord) : Option Nat :=
  (index.find? m.owner).map Positions.first

theorem mapIdx_self {α : Type} (xs : List α) : xs.mapIdx (fun _ x ↦ x) = xs :=
  List.ext_getElem? fun i ↦ by simp

/-- What one method does to the others: it comes last in its class, or it is the last orphan. -/
theorem add_eq (sorted : Sorted) (m : MethodRecord) :
    sorted.add index m =
      ⟨sorted.byClass.mapIdx fun i ms ↦ ms ++ if target index m = some i then [m] else [],
        sorted.orphans ++ if target index m = none then [.ofMethod m] else []⟩ := by
  rw [add, target]
  cases index.find? m.owner with
  | none => simp [mapIdx_self]
  | some places =>
    have hmodify : sorted.byClass.modify places.first (· ++ [m]) =
        sorted.byClass.mapIdx fun i ms ↦ ms ++ if some places.first = some i then [m] else [] := by
      refine List.ext_getElem? fun i ↦ ?_
      rw [List.getElem?_modify, List.getElem?_mapIdx]
      by_cases hi : places.first = i <;> simp [hi]
    simp [hmodify]

/-- **What sorting comes to**: each class gets the methods that it is the target of, and the orphans
are those without a target, all in their order. -/
theorem foldl_add (ms : List MethodRecord) (sorted : Sorted) :
    ms.foldl (add index) sorted =
      ⟨sorted.byClass.mapIdx fun i before ↦ before ++ ms.filter fun m ↦ target index m = some i,
        sorted.orphans ++ (ms.filter fun m ↦ target index m = none).map .ofMethod⟩ := by
  induction ms generalizing sorted with
  | nil => simp [mapIdx_self]
  | cons m ms ih =>
    rw [List.foldl_cons, ih, add_eq]
    congr 1
    · rw [List.mapIdx_mapIdx]
      congr 1
      funext i before
      by_cases h : target index m = some i <;> simp [h]
    · by_cases h : target index m = none <;> simp [h]

end Sorted

namespace Store

variable {s : Store}

/-- The methods that name a class. -/
def methodsOf (s : Store) (c : ClassRecord) : List MethodRecord :=
  s.methods.filter fun m ↦ m.owner = c.fullName

/-- The methods whose class is not there. -/
def orphanedMethods (s : Store) : List MethodRecord :=
  s.methods.filter fun m ↦ m.owner ∉ s.classes.map ClassRecord.fullName

theorem find?_classIndex_eq_none_iff {name : String} :
    s.classIndex.find? name = none ↔ name ∉ s.classes.map ClassRecord.fullName := by
  rw [← Option.map_eq_none_iff (f := Positions.count), count_classIndex]
  split <;> simp_all

/-- The first place under a name is that of a class with this name. -/
theorem fullName_of_find?_classIndex {name : String} {places : Positions}
    (h : s.classIndex.find? name = some places) :
    ∃ c, s.classes[places.first]? = some c ∧ c.fullName = name := by
  rw [find?_classIndex] at h
  cases hfilter : s.classes.zipIdx.filter fun x ↦ x.1.fullName = name with
  | nil => simp [hfilter, Positions.ofList?] at h
  | cons x xs =>
    rw [hfilter, List.map_cons, Positions.ofList?, Option.some.injEq] at h
    obtain ⟨hmem, hname⟩ := List.mem_filter.1 (hfilter ▸ List.mem_cons_self ..)
    refine ⟨x.1, ?_, by simpa using hname⟩
    rw [← h]
    exact List.mem_zipIdx_iff_getElem?.1 hmem

/-- The methods whose target is a class are those that name it. -/
theorem target_eq_some_iff (h : s.Distinct) {i : Nat} {c : ClassRecord}
    (hc : s.classes[i]? = some c) {m : MethodRecord} :
    Sorted.target s.classIndex m = some i ↔ m.owner = c.fullName := by
  rw [Sorted.target, Option.map_eq_some_iff]
  constructor
  · rintro ⟨places, hplaces, rfl⟩
    obtain ⟨c', hc', hname⟩ := fullName_of_find?_classIndex hplaces
    rw [hc, Option.some.injEq] at hc'
    rw [hc', hname]
  · intro howner
    have hmem : m.owner ∈ s.classes.map ClassRecord.fullName :=
      List.mem_map.2 ⟨c, List.mem_of_getElem? hc, howner.symm⟩
    cases hplaces : s.classIndex.find? m.owner with
    | none => exact absurd hmem (find?_classIndex_eq_none_iff.1 hplaces)
    | some places =>
      obtain ⟨c', hc', hname⟩ := fullName_of_find?_classIndex hplaces
      refine ⟨places, rfl, ?_⟩
      obtain ⟨hlt, -⟩ := List.getElem?_eq_some_iff.1 hc'
      refine (List.getElem?_inj (by rwa [List.length_map]) h.classes).1 ?_
      rw [List.getElem?_map, List.getElem?_map, hc, hc', Option.map_some, Option.map_some, hname,
        howner]

/-- **Each class gets the methods that name it.** -/
theorem sortMethods_eq (h : s.Distinct) :
    s.sortMethods = ⟨s.classes.map s.methodsOf, s.orphanedMethods.map .ofMethod⟩ := by
  rw [sortMethods, Sorted.foldl_add]
  congr 1
  · refine List.ext_getElem? fun i ↦ ?_
    rw [List.getElem?_mapIdx, List.getElem?_map, List.getElem?_replicate]
    cases hc : s.classes[i]? with
    | none =>
      rw [if_neg (Nat.not_lt.2 (List.getElem?_eq_none_iff.1 hc))]
      rfl
    | some c =>
      rw [if_pos (List.getElem?_eq_some_iff.1 hc).1, Option.map_some, Option.map_some,
        List.nil_append, methodsOf]
      congr 1
      exact List.filter_congr fun m _ ↦ by simp [target_eq_some_iff h hc]
  · rw [List.nil_append, orphanedMethods]
    congr 1
    refine List.filter_congr fun m _ ↦ ?_
    simp [Sorted.target, find?_classIndex_eq_none_iff]

end Store

/-! ## Classes to namespaces -/

namespace OpenNamespace

theorem foldl_add (cs : List PlacedClass) (ns : OpenNamespace) :
    cs.foldl add ns =
      ⟨ns.record, cs.foldl (fun t c ↦ t.insert c.record.name c) ns.classes⟩ := by
  induction cs generalizing ns with
  | nil => rfl
  | cons c cs ih => rw [List.foldl_cons, ih, List.foldl_cons, add]

/-- A namespace keeps all classes that are put into it, if their names differ. -/
theorem close_foldl_add (ns : NamespaceRecord) (cs : List PlacedClass)
    (h : (cs.map fun c ↦ c.record.name).Nodup) :
    (cs.foldl add ⟨ns, .empty⟩).close = ⟨ns, cs⟩ := by
  have hentries := Table.entries_foldl_insert (fun c : PlacedClass ↦ c.record.name) id cs .empty
    (by simpa using h)
  rw [foldl_add, close, PlacedNamespace.mk.injEq]
  refine ⟨rfl, ?_⟩
  simp only [id, Table.entries_empty, List.nil_append] at hentries
  rw [Table.values, hentries, List.map_map]
  exact List.map_id cs

end OpenNamespace

namespace Filling

/-- What one class does: it goes to the namespace that it names, or it is the last orphan. -/
theorem add_eq (f : Filling) (c : PlacedClass) :
    (f.add c).namespaces.keys = f.namespaces.keys ∧
      (∀ name, (f.add c).namespaces.find? name =
        (f.namespaces.find? name).map fun ns ↦ if c.record.owner = name then ns.add c else ns) ∧
      (f.add c).orphans = f.orphans ++
        if c.record.owner ∈ f.namespaces.keys then [] else [.ofClass c.record c.methods.length] := by
  rw [add]
  cases hfind : f.namespaces.find? c.record.owner with
  | none =>
    have hmem := Table.find?_eq_none_iff.1 hfind
    refine ⟨rfl, fun name ↦ ?_, by rw [if_neg hmem]⟩
    by_cases hname : c.record.owner = name
    · rw [← hname, hfind, Option.map_none]
    · simp [hname]
  | some ns =>
    have hmem : c.record.owner ∈ f.namespaces.keys := by
      by_contra hno
      rw [Table.find?_eq_none_iff.2 hno] at hfind
      exact absurd hfind (by simp)
    dsimp only
    refine ⟨by rw [Table.keys_insert, if_pos hmem], fun name ↦ ?_, by simp [hmem]⟩
    rw [Table.find?_insert]
    by_cases hname : c.record.owner = name
    · rw [if_pos hname, ← hname, hfind, Option.map_some, if_pos rfl]
    · simp [hname]

/-- **What filling comes to**: each namespace gets the classes that name it, and the orphans are the
classes that name none, all in their order. -/
theorem foldl_add (cs : List PlacedClass) (f : Filling) :
    (cs.foldl add f).namespaces.keys = f.namespaces.keys ∧
      (∀ name, (cs.foldl add f).namespaces.find? name =
        (f.namespaces.find? name).map fun ns ↦
          (cs.filter fun c ↦ c.record.owner = name).foldl OpenNamespace.add ns) ∧
      (cs.foldl add f).orphans = f.orphans ++
        (cs.filter fun c ↦ c.record.owner ∉ f.namespaces.keys).map
          fun c ↦ .ofClass c.record c.methods.length := by
  induction cs generalizing f with
  | nil => simp
  | cons c cs ih =>
    obtain ⟨hkeys, hfind, horphans⟩ := f.add_eq c
    obtain ⟨ihkeys, ihfind, ihorphans⟩ := ih (f.add c)
    rw [List.foldl_cons]
    refine ⟨ihkeys.trans hkeys, fun name ↦ ?_, ?_⟩
    · rw [ihfind, hfind, Option.map_map]
      congr 1
      funext ns
      by_cases hname : c.record.owner = name <;> simp [hname]
    · rw [ihorphans, horphans, hkeys, List.append_assoc]
      by_cases hmem : c.record.owner ∈ f.namespaces.keys <;> simp [hmem]

end Filling

namespace Store

variable {s : Store}

/-- The class with its methods. -/
def withMethods (s : Store) (c : ClassRecord) : PlacedClass := ⟨c, s.methodsOf c⟩

/-- The classes that name a namespace. -/
def classesOf (s : Store) (ns : NamespaceRecord) : List ClassRecord :=
  s.classes.filter fun c ↦ c.owner = ns.name

/-- The classes whose namespace is not there. -/
def orphanedClasses (s : Store) : List ClassRecord :=
  s.classes.filter fun c ↦ c.owner ∉ s.namespaces.map NamespaceRecord.name

/-- The records in the places that their names say. -/
def placed (s : Store) : Placement where
  namespaces := s.namespaces.map fun ns ↦ ⟨ns, (s.classesOf ns).map s.withMethods⟩
  orphans := s.orphanedMethods.map .ofMethod ++
    s.orphanedClasses.map fun c ↦ .ofClass c (s.methodsOf c).length

/-- Classes of one namespace with one name would have one full name. -/
theorem nodup_name_classesOf (h : s.Distinct) (ns : NamespaceRecord) :
    ((s.classesOf ns).map ClassRecord.name).Nodup := by
  have hfull : ((s.classesOf ns).map ClassRecord.fullName).Nodup :=
    h.classes.sublist (List.filter_sublist.map _)
  have heq : (s.classesOf ns).map ClassRecord.fullName =
      ((s.classesOf ns).map ClassRecord.name).map (qualify ns.name) := by
    rw [List.map_map]
    refine List.map_congr_left fun c hc ↦ ?_
    have howner : c.owner = ns.name := by simpa using (List.mem_filter.1 hc).2
    rw [ClassRecord.fullName, howner, Function.comp_apply]
  rw [heq] at hfull
  exact hfull.of_map

theorem entries_openNamespaces (h : s.Distinct) :
    s.openNamespaces.entries = s.namespaces.map fun ns ↦ (ns.name, ⟨ns, .empty⟩) := by
  have hentries := Table.entries_foldl_insert NamespaceRecord.name
    (fun ns ↦ (⟨ns, .empty⟩ : OpenNamespace)) s.namespaces .empty (by simpa using h.namespaces)
  rwa [Table.entries_empty, List.nil_append] at hentries

theorem keys_openNamespaces (h : s.Distinct) :
    s.openNamespaces.keys = s.namespaces.map NamespaceRecord.name := by
  rw [Table.keys, entries_openNamespaces h, List.map_map]
  rfl

/-- **Each namespace gets the classes that name it, with the methods that name these.** -/
theorem fill_eq (h : s.Distinct) :
    s.fill.namespaces.values.map OpenNamespace.close = s.placed.namespaces ∧
      s.fill.orphans = s.placed.orphans := by
  have hclasses : List.zipWith PlacedClass.mk s.classes (s.classes.map s.methodsOf) =
      s.classes.map s.withMethods := by
    rw [List.zipWith_map_right, List.zipWith_self]
    rfl
  obtain ⟨hkeys, hfind, horphans⟩ := Filling.foldl_add (s.classes.map s.withMethods)
    ⟨s.openNamespaces, s.orphanedMethods.map .ofMethod⟩
  rw [fill, sortMethods_eq h]
  dsimp only at hkeys hfind horphans ⊢
  rw [hclasses]
  constructor
  · rw [Table.values_eq, hkeys, keys_openNamespaces h, List.filterMap_map, List.map_filterMap]
    refine List.filterMap_eq_map_iff_forall_eq_some.2 fun ns hns ↦ ?_
    have hopen : s.openNamespaces.find? ns.name = some ⟨ns, .empty⟩ := by
      rw [← Table.mem_entries_iff, entries_openNamespaces h]
      exact List.mem_map.2 ⟨ns, hns, rfl⟩
    have hof : (s.classes.map s.withMethods).filter (fun c ↦ decide (c.record.owner = ns.name)) =
        (s.classesOf ns).map s.withMethods := by
      rw [List.filter_map]
      rfl
    rw [Function.comp_apply, hfind, hopen, hof, Option.map_some, Option.map_some, Option.some.injEq]
    refine OpenNamespace.close_foldl_add ns _ ?_
    rw [List.map_map]
    exact nodup_name_classesOf h ns
  · rw [horphans, keys_openNamespaces h, List.filter_map, List.map_map]
    rfl

/-- **When placing succeeds, and with what**: all owners can be told apart, and the records are in the
places that their names say. -/
theorem place_eq_ok_iff {p : Placement} : s.place = .ok p ↔ s.Distinct ∧ p = s.placed := by
  rw [place]
  constructor
  · intro h
    split at h
    · rename_i hnil
      have hdistinct := s.conflicts_eq_nil_iff.1 hnil
      obtain ⟨hnamespaces, horphans⟩ := fill_eq hdistinct
      rw [hnamespaces, horphans] at h
      exact ⟨hdistinct, (Except.ok.inj h).symm⟩
    · exact absurd h (by simp)
  · rintro ⟨hdistinct, rfl⟩
    obtain ⟨hnamespaces, horphans⟩ := fill_eq hdistinct
    rw [s.conflicts_eq_nil_iff.2 hdistinct, hnamespaces, horphans]

end Store

end Dossier
