import Dossier.Project
import Dossier.Proofs.Placement.Partition

/-!
# Tolerated orphans leave no trace

A program is assembled without the records that have no place, if they are tolerated.  These records,
and the methods of orphaned classes, do not influence what is assembled: it is the same as if they had
not been there at all.

`Store.withoutOrphans` leaves them out, and `Store.place_withoutOrphans` is the main statement.  That
leaving them out takes no owner from the records that stay is `Store.methodsOf_withoutOrphans` and
`Store.classesOf_withoutOrphans`.
-/

set_option autoImplicit false

namespace Dossier

namespace Store

/-- The store without the orphans of a placement and the methods that go with them. -/
def withoutOrphans (s : Store) (p : Placement) : Store where
  methods := s.methods.filter fun m ↦
    m ∉ p.lostMethods ∧ m.owner ∉ p.lostClasses.map fun c ↦ c.1.fullName
  classes := s.classes.filter fun c ↦ c ∉ p.lostClasses.map Prod.fst
  namespaces := s.namespaces

variable {s : Store}

theorem mem_orphanedMethods {m : MethodRecord} : m ∈ s.orphanedMethods ↔
    m ∈ s.methods ∧ m.owner ∉ s.classes.map ClassRecord.fullName := by
  rw [orphanedMethods, List.mem_filter, decide_eq_true_eq]

theorem mem_orphanedClasses {c : ClassRecord} : c ∈ s.orphanedClasses ↔
    c ∈ s.classes ∧ c.owner ∉ s.namespaces.map NamespaceRecord.name := by
  rw [orphanedClasses, List.mem_filter, decide_eq_true_eq]

theorem mem_classes_withoutOrphans {c : ClassRecord} :
    c ∈ (s.withoutOrphans s.placed).classes ↔
      c ∈ s.classes ∧ c.owner ∈ s.namespaces.map NamespaceRecord.name := by
  rw [withoutOrphans, List.mem_filter, fst_lostClasses_placed, decide_eq_true_eq,
    mem_orphanedClasses]
  constructor
  · rintro ⟨hc, hno⟩
    exact ⟨hc, by_contra fun howner ↦ hno ⟨hc, howner⟩⟩
  · rintro ⟨hc, howner⟩
    exact ⟨hc, fun h ↦ h.2 howner⟩

/-- A method stays exactly if its class is there and stays. -/
theorem mem_methods_withoutOrphans (h : s.Distinct) {m : MethodRecord} :
    m ∈ (s.withoutOrphans s.placed).methods ↔
      m ∈ s.methods ∧ ∃ c ∈ (s.withoutOrphans s.placed).classes, c.fullName = m.owner := by
  have hlost : (s.placed.lostClasses.map fun c ↦ c.1.fullName) =
      s.orphanedClasses.map ClassRecord.fullName := by
    rw [← fst_lostClasses_placed, List.map_map]
    rfl
  rw [withoutOrphans, List.mem_filter, lostMethods_placed, hlost, decide_eq_true_eq]
  constructor
  · rintro ⟨hm, hno, hclass⟩
    refine ⟨hm, ?_⟩
    have howner : m.owner ∈ s.classes.map ClassRecord.fullName :=
      by_contra fun howner ↦ hno (mem_orphanedMethods.2 ⟨hm, howner⟩)
    obtain ⟨c, hc, hname⟩ := List.mem_map.1 howner
    refine ⟨c, mem_classes_withoutOrphans.2 ⟨hc, by_contra fun hns ↦ hclass ?_⟩, hname⟩
    exact List.mem_map.2 ⟨c, mem_orphanedClasses.2 ⟨hc, hns⟩, hname⟩
  · rintro ⟨hm, c, hc, hname⟩
    obtain ⟨hc, hns⟩ := mem_classes_withoutOrphans.1 hc
    refine ⟨hm, fun hno ↦ (mem_orphanedMethods.1 hno).2 (List.mem_map.2 ⟨c, hc, hname⟩), ?_⟩
    intro hclass
    obtain ⟨c', hc', hname'⟩ := List.mem_map.1 hclass
    obtain ⟨hc', hns'⟩ := mem_orphanedClasses.1 hc'
    have heq : c' = c := List.inj_on_of_nodup_map h.classes hc' hc (hname'.trans hname.symm)
    exact hns' (heq ▸ hns)

theorem distinct_withoutOrphans (h : s.Distinct) : (s.withoutOrphans s.placed).Distinct where
  namespaces := h.namespaces
  classes := h.classes.sublist (List.filter_sublist.map _)

/-- A namespace keeps all classes that name it. -/
theorem classesOf_withoutOrphans {ns : NamespaceRecord} (hns : ns ∈ s.namespaces) :
    (s.withoutOrphans s.placed).classesOf ns = s.classesOf ns := by
  rw [classesOf, withoutOrphans, List.filter_filter, classesOf]
  refine List.filter_congr fun c hc ↦ ?_
  by_cases howner : c.owner = ns.name
  · have hstays : c ∈ (s.withoutOrphans s.placed).classes :=
      mem_classes_withoutOrphans.2 ⟨hc, howner ▸ List.mem_map_of_mem hns⟩
    rw [(List.mem_filter.1 hstays).2, Bool.and_true]
  · simp [howner]

/-- A class that stays keeps all methods that name it. -/
theorem methodsOf_withoutOrphans (h : s.Distinct) {c : ClassRecord}
    (hc : c ∈ (s.withoutOrphans s.placed).classes) :
    (s.withoutOrphans s.placed).methodsOf c = s.methodsOf c := by
  rw [methodsOf, withoutOrphans, List.filter_filter, methodsOf]
  refine List.filter_congr fun m hm ↦ ?_
  by_cases howner : m.owner = c.fullName
  · have hstays : m ∈ (s.withoutOrphans s.placed).methods :=
      (mem_methods_withoutOrphans h).2 ⟨hm, c, hc, howner.symm⟩
    rw [(List.mem_filter.1 hstays).2, Bool.and_true]
  · simp [howner]

theorem namespaces_placed_withoutOrphans (h : s.Distinct) :
    (s.withoutOrphans s.placed).placed.namespaces = s.placed.namespaces := by
  refine List.map_congr_left fun ns (hns : ns ∈ s.namespaces) ↦ ?_
  rw [classesOf_withoutOrphans hns, PlacedNamespace.mk.injEq]
  refine ⟨rfl, List.map_congr_left fun c hc ↦ ?_⟩
  have hstays : c ∈ (s.withoutOrphans s.placed).classes := by
    rw [← classesOf_withoutOrphans hns] at hc
    exact (List.mem_filter.1 hc).1
  rw [withMethods, withMethods, methodsOf_withoutOrphans h hstays]

theorem orphans_placed_withoutOrphans (h : s.Distinct) :
    (s.withoutOrphans s.placed).placed.orphans = [] := by
  have hmethods : (s.withoutOrphans s.placed).orphanedMethods = [] := by
    refine List.eq_nil_iff_forall_not_mem.2 fun m hm ↦ ?_
    obtain ⟨hm, hno⟩ := mem_orphanedMethods.1 hm
    obtain ⟨-, c, hc, hname⟩ := (mem_methods_withoutOrphans h).1 hm
    exact hno (List.mem_map.2 ⟨c, hc, hname⟩)
  have hclasses : (s.withoutOrphans s.placed).orphanedClasses = [] := by
    refine List.eq_nil_iff_forall_not_mem.2 fun c hc ↦ ?_
    obtain ⟨hc, hno⟩ := mem_orphanedClasses.1 hc
    exact hno (mem_classes_withoutOrphans.1 hc).2
  rw [placed, hmethods, hclasses]
  rfl

end Store

/-! ## Assembling -/

/-- Units are made of what has a place. -/
theorem CompileUnit.ofPlacement_congr {p q : Placement} (h : p.namespaces = q.namespaces) :
    CompileUnit.ofPlacement p = CompileUnit.ofPlacement q := by
  rw [ofPlacement, ofPlacement, h]

theorem Logged.result_forM {ε α : Type} (xs : List α) (f : α → Logged ε Unit)
    (h : ∀ x, (f x).result = .ok ()) : (xs.forM f).result = .ok () := by
  induction xs with
  | nil => rfl
  | cons x xs ih =>
    rw [List.forM_eq_forM, List.forM_cons, Logged.result_bind, h]
    exact ih

namespace Project

theorem result_logStore (path : String) (s : Store) : (logStore path s).result = .ok () := by
  have hsummary := Logged.result_forM (ε := AssembleError) s.summary
    (fun line ↦ Logged.log .info speaker line) fun _ ↦ rfl
  rw [logStore]
  split
  · exact hsummary
  · exact hsummary

theorem result_logOrphans (p : Placement) (tolerate : Bool) :
    (logOrphans p tolerate).result = .ok () := by
  have heach := Logged.result_forM (ε := AssembleError) p.orphans
    (fun o ↦ Logged.log .warn speaker ("orphaned " ++ o.message)) fun _ ↦ rfl
  rw [logOrphans, Logged.result_bind, heach]
  dsimp only [bind, Except.bind]
  split <;> rfl

/-- What assembling a folder gives whose records have places. -/
theorem result_assemble {f : Folder} {s : Store} {p : Placement} {tolerate : Bool}
    (hs : f.records.result = .ok s) (hp : s.place = .ok p) (h : p.orphans = [] ∨ tolerate = true) :
    (assemble f tolerate).result = (CompileUnit.ofPlacement p).mapError .signatures := by
  have hgo : (!p.orphans.isEmpty && !tolerate) = false := by
    rcases h with h | h <;> simp [h]
  have hok {ε α β : Type} (a : α) (g : α → Except ε β) : (Except.ok a >>= g) = g a := rfl
  simp only [assemble, Logged.result_bind, Logged.result_adapt, Logged.result_ofExcept, hs, hp,
    result_logStore, result_logOrphans, Except.mapError, hok, hgo]
  cases CompileUnit.ofPlacement p <;> rfl

end Project

namespace Store

/-- **Orphans leave no trace.**  Without them the records have the same places and give the same unit
or the same conflicts, so that two stores that differ in orphans alone cannot be told apart; and a
folder is assembled with its orphans tolerated as one that does not hold them. -/
theorem place_withoutOrphans {s : Store} {p : Placement} (h : s.place = .ok p) :
    (∃ q, (s.withoutOrphans p).place = .ok q ∧ q.orphans = [] ∧ q.namespaces = p.namespaces ∧
      CompileUnit.ofPlacement q = CompileUnit.ofPlacement p) ∧
    (∀ (s' : Store) (p' : Placement), s'.place = .ok p' → s'.withoutOrphans p' = s.withoutOrphans p →
      p'.namespaces = p.namespaces ∧ CompileUnit.ofPlacement p' = CompileUnit.ofPlacement p) ∧
    ∀ (f f' : Folder) (tolerate : Bool), f.records.result = .ok s →
      f'.records.result = .ok (s.withoutOrphans p) →
      (Project.assemble f true).result = (Project.assemble f' tolerate).result := by
  have hplace {s : Store} {p : Placement} (h : s.place = .ok p) :
      ∃ q, (s.withoutOrphans p).place = .ok q ∧ q.orphans = [] ∧ q.namespaces = p.namespaces := by
    obtain ⟨hdistinct, rfl⟩ := place_eq_ok_iff.1 h
    exact ⟨_, place_eq_ok_iff.2 ⟨distinct_withoutOrphans hdistinct, rfl⟩,
      orphans_placed_withoutOrphans hdistinct, namespaces_placed_withoutOrphans hdistinct⟩
  obtain ⟨q, hq, horphans, hnamespaces⟩ := hplace h
  refine ⟨⟨q, hq, horphans, hnamespaces, CompileUnit.ofPlacement_congr hnamespaces⟩, ?_, ?_⟩
  · intro s' p' h' hsame
    obtain ⟨q', hq', -, hnamespaces'⟩ := hplace h'
    rw [hsame, hq, Except.ok.injEq] at hq'
    have heq : p'.namespaces = p.namespaces := by rw [← hnamespaces', ← hq', hnamespaces]
    exact ⟨heq, CompileUnit.ofPlacement_congr heq⟩
  · intro f f' tolerate hf hf'
    rw [Project.result_assemble hf h (.inr rfl), Project.result_assemble hf' hq (.inl horphans),
      CompileUnit.ofPlacement_congr hnamespaces]

/-- The method of the orphaned class has a malformed signature, and still there is a unit. -/
theorem scattered_withoutOrphans : scattered.place = .ok scattered.placed ∧
    scattered.placed.orphans ≠ [] ∧
    ∃ q, (scattered.withoutOrphans scattered.placed).place = .ok q ∧ q.orphans = [] ∧
      q.namespaces = scattered.placed.namespaces ∧ (CompileUnit.ofPlacement q).isOk := by
  have h : scattered.place = .ok scattered.placed := by decide +kernel
  obtain ⟨q, hq, horphans, hnamespaces, hunit⟩ := (place_withoutOrphans h).1
  refine ⟨h, by decide +kernel, q, hq, horphans, hnamespaces, ?_⟩
  rw [hunit]
  decide +kernel

end Store

end Dossier
