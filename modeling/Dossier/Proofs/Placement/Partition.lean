import Dossier.Proofs.Placement.Passes
import Mathlib.Algebra.GroupWithZero.Nat

/-!
# Placing loses and doubles nothing

Where all owners can be told apart, placing succeeds, and the records are all there afterwards: each
namespace in its place, each class in its namespace or among the orphans, each method in its class or
among the orphans.

`Placement.Accounts` is the account of the records, and `Store.place_accounts` the main statement.
Its two counts rest on `perm_flatMap_filter`: selecting elements by each of several keys, and what has
none of them, rearranges a list.
-/

set_option autoImplicit false

namespace Dossier

/-! ## Records among the orphans -/

/-- The method, if the orphan is one. -/
def Orphan.method? : Orphan → Option MethodRecord
  | .ofMethod m => some m
  | .ofClass _ _ => none

/-- The class and the number of methods that go with it, if the orphan is one. -/
def Orphan.class? : Orphan → Option (ClassRecord × Nat)
  | .ofMethod _ => none
  | .ofClass c n => some (c, n)

namespace Placement

/-- The methods among the orphans. -/
def lostMethods (p : Placement) : List MethodRecord := p.orphans.filterMap Orphan.method?

/-- The classes among the orphans, with the numbers of methods that go with them. -/
def lostClasses (p : Placement) : List (ClassRecord × Nat) := p.orphans.filterMap Orphan.class?

theorem length_lostMethods (p : Placement) : p.lostMethods.length = p.orphanedMethods := by
  rw [lostMethods, List.length_filterMap_eq_countP, orphanedMethods]
  exact List.countP_congr fun o _ ↦ by cases o <;> simp [Orphan.method?]

theorem length_lostClasses (p : Placement) : p.lostClasses.length = p.orphanedClasses := by
  rw [lostClasses, List.length_filterMap_eq_countP, orphanedClasses]
  exact List.countP_congr fun o _ ↦ by cases o <;> simp [Orphan.class?]

/-- The records of a store are all in the placement, each once. -/
structure Accounts (s : Store) (p : Placement) : Prop where
  /-- The namespaces are those of the store. -/
  namespaces : p.namespaces.map PlacedNamespace.record = s.namespaces
  /-- A namespace has the classes that name it. -/
  classes : ∀ ns ∈ p.namespaces, ns.classes.map PlacedClass.record =
    s.classes.filter fun c ↦ c.owner = ns.record.name
  /-- The orphaned classes are those that name no namespace. -/
  lostClasses : p.lostClasses.map Prod.fst =
    s.classes.filter fun c ↦ ∀ ns ∈ s.namespaces, ns.name ≠ c.owner
  /-- Each class is once in a namespace and never an orphan, or the other way round. -/
  class_once : ∀ c ∈ s.classes,
    (p.classes.map PlacedClass.record).count c + (p.lostClasses.map Prod.fst).count c = 1
  /-- A class has the methods that name it. -/
  methods : ∀ c ∈ p.classes, c.methods = s.methods.filter fun m ↦ m.owner = c.record.fullName
  /-- The methods that name an orphaned class are counted with it. -/
  dropped : ∀ c ∈ p.lostClasses, c.2 = (s.methods.filter fun m ↦ m.owner = c.1.fullName).length
  /-- The orphaned methods are those that name no class. -/
  lostMethods : p.lostMethods = s.methods.filter fun m ↦ ∀ c ∈ s.classes, c.fullName ≠ m.owner
  /-- Each method is as often in the classes, among the orphans and with the orphaned classes as it
  is in the store. -/
  methods_perm : (p.classes.flatMap PlacedClass.methods ++ p.lostMethods ++
    p.lostClasses.flatMap fun c ↦ s.methods.filter fun m ↦ m.owner = c.1.fullName).Perm s.methods
  /-- The methods add up. -/
  methodCount : p.methodCount + p.orphanedMethods + (p.lostClasses.map Prod.snd).sum =
    s.methods.length
  /-- The classes add up. -/
  classCount : p.classes.length + p.orphanedClasses = s.classes.length

end Placement

/-! ## Selecting by key -/

open scoped List in
/-- Selecting elements by each of several keys, and what has none of them, rearranges a list. -/
theorem perm_flatMap_filter {κ β : Type} [DecidableEq κ] (key : β → κ) (xs : List β) {ks : List κ}
    (h : ks.Nodup) :
    ((ks.flatMap fun k ↦ xs.filter fun x ↦ key x = k) ++ xs.filter fun x ↦ key x ∉ ks).Perm xs := by
  induction ks with
  | nil => simp
  | cons k ks ih =>
    obtain ⟨hk, hks⟩ := List.nodup_cons.1 h
    -- what has none of the other keys has this key or none at all
    have hsplit : (xs.filter (fun x ↦ key x = k) ++ xs.filter fun x ↦ key x ∉ k :: ks).Perm
        (xs.filter fun x ↦ key x ∉ ks) := by
      have hthis : xs.filter (fun x ↦ key x = k) =
          (xs.filter fun x ↦ key x ∉ ks).filter fun x ↦ key x = k := by
        rw [List.filter_filter]
        refine List.filter_congr fun x _ ↦ ?_
        by_cases hx : key x = k
        · simp [hx, hk]
        · simp [hx]
      have hnone : (xs.filter fun x ↦ key x ∉ k :: ks) =
          (xs.filter fun x ↦ key x ∉ ks).filter fun x ↦ !decide (key x = k) := by
        rw [List.filter_filter]
        exact List.filter_congr fun x _ ↦ by simp [not_or]
      rw [hthis, hnone]
      exact List.filter_append_perm _ _
    calc ((k :: ks).flatMap fun k ↦ xs.filter fun x ↦ key x = k) ++
          (xs.filter fun x ↦ key x ∉ k :: ks)
        = xs.filter (fun x ↦ key x = k) ++ ((ks.flatMap fun k ↦ xs.filter fun x ↦ key x = k) ++
            xs.filter fun x ↦ key x ∉ k :: ks) := by rw [List.flatMap_cons, List.append_assoc]
      _ ~ (ks.flatMap fun k ↦ xs.filter fun x ↦ key x = k) ++ (xs.filter (fun x ↦ key x = k) ++
            xs.filter fun x ↦ key x ∉ k :: ks) := List.perm_append_comm_assoc ..
      _ ~ (ks.flatMap fun k ↦ xs.filter fun x ↦ key x = k) ++ xs.filter fun x ↦ key x ∉ ks :=
          hsplit.append_left _
      _ ~ xs := ih hks

/-! ## The account -/

namespace Store

variable {s : Store}

theorem classes_placed (s : Store) :
    s.placed.classes = (s.namespaces.flatMap s.classesOf).map s.withMethods := by
  rw [Placement.classes, placed, List.flatMap_map, List.map_flatMap]

theorem lostMethods_placed (s : Store) : s.placed.lostMethods = s.orphanedMethods := by
  rw [Placement.lostMethods, placed, List.filterMap_append, List.filterMap_map, List.filterMap_map]
  have hmethods : s.orphanedMethods.filterMap (Orphan.method? ∘ Orphan.ofMethod) =
      s.orphanedMethods := List.filterMap_some
  have hclasses : s.orphanedClasses.filterMap
      (Orphan.method? ∘ fun c ↦ Orphan.ofClass c (s.methodsOf c).length) = [] :=
    List.filterMap_eq_nil_iff.2 fun _ _ ↦ rfl
  rw [hmethods, hclasses, List.append_nil]

theorem lostClasses_placed (s : Store) :
    s.placed.lostClasses = s.orphanedClasses.map fun c ↦ (c, (s.methodsOf c).length) := by
  rw [Placement.lostClasses, placed, List.filterMap_append, List.filterMap_map, List.filterMap_map]
  have hmethods : s.orphanedMethods.filterMap (Orphan.class? ∘ Orphan.ofMethod) = [] :=
    List.filterMap_eq_nil_iff.2 fun _ _ ↦ rfl
  have hclasses : s.orphanedClasses.filterMap
      (Orphan.class? ∘ fun c ↦ Orphan.ofClass c (s.methodsOf c).length) =
      s.orphanedClasses.map fun c ↦ (c, (s.methodsOf c).length) := by
    rw [← List.filterMap_eq_map]
    rfl
  rw [hmethods, hclasses, List.nil_append]

theorem fst_lostClasses_placed (s : Store) :
    s.placed.lostClasses.map Prod.fst = s.orphanedClasses := by
  rw [lostClasses_placed, List.map_map]
  exact List.map_id _

/-- Each class is in one namespace or an orphan. -/
theorem perm_classes (h : s.Distinct) :
    (s.namespaces.flatMap s.classesOf ++ s.orphanedClasses).Perm s.classes := by
  have hperm := perm_flatMap_filter ClassRecord.owner s.classes h.namespaces
  rwa [List.flatMap_map] at hperm

/-- Each method is in one class or an orphan. -/
theorem perm_methods (h : s.Distinct) :
    (s.classes.flatMap s.methodsOf ++ s.orphanedMethods).Perm s.methods := by
  have hperm := perm_flatMap_filter MethodRecord.owner s.methods h.classes
  rwa [List.flatMap_map] at hperm

/-- The same with the classes that have a place and those that are orphans told apart. -/
theorem perm_methods_placed (h : s.Distinct) :
    ((s.namespaces.flatMap s.classesOf).flatMap s.methodsOf ++ s.orphanedMethods ++
      s.orphanedClasses.flatMap s.methodsOf).Perm s.methods := by
  have hclasses := ((perm_classes h).flatMap_right s.methodsOf).append_right s.orphanedMethods
  rw [List.flatMap_append] at hclasses
  refine List.Perm.trans ?_ (hclasses.trans (perm_methods h))
  rw [List.append_assoc, List.append_assoc]
  exact List.perm_append_comm.append_left _

theorem accounts_placed (h : s.Distinct) : s.placed.Accounts s := by
  have hmethods : (s.placed.classes.flatMap PlacedClass.methods ++ s.placed.lostMethods ++
      s.placed.lostClasses.flatMap fun c ↦
        s.methods.filter fun m ↦ m.owner = c.1.fullName).Perm s.methods := by
    rw [classes_placed, lostMethods_placed, lostClasses_placed, List.flatMap_map, List.flatMap_map]
    exact perm_methods_placed h
  have hclasses : (s.placed.classes.map PlacedClass.record ++
      s.placed.lostClasses.map Prod.fst).Perm s.classes := by
    have hrecords : s.placed.classes.map PlacedClass.record = s.namespaces.flatMap s.classesOf := by
      rw [classes_placed, List.map_map]
      exact List.map_id _
    rw [hrecords, fst_lostClasses_placed]
    exact perm_classes h
  have hdropped : ∀ c ∈ s.placed.lostClasses,
      c.2 = (s.methods.filter fun m ↦ m.owner = c.1.fullName).length := by
    intro c hc
    rw [lostClasses_placed] at hc
    obtain ⟨r, -, rfl⟩ := List.mem_map.1 hc
    rfl
  exact {
    namespaces := by
      rw [placed, List.map_map]
      exact List.map_id _
    classes := by
      intro ns hns
      obtain ⟨r, -, rfl⟩ := List.mem_map.1 hns
      rw [List.map_map]
      exact List.map_id _
    lostClasses := by
      rw [fst_lostClasses_placed, orphanedClasses]
      exact List.filter_congr fun c _ ↦ by simp
    class_once := by
      intro c hc
      rw [← List.count_append, hclasses.count_eq]
      exact List.count_eq_one_of_mem h.classes.of_map hc
    methods := by
      intro c hc
      rw [classes_placed] at hc
      obtain ⟨r, -, rfl⟩ := List.mem_map.1 hc
      rfl
    dropped := hdropped
    lostMethods := by
      rw [lostMethods_placed, orphanedMethods]
      exact List.filter_congr fun m _ ↦ by simp
    methods_perm := hmethods
    methodCount := by
      rw [← hmethods.length_eq, List.length_append, List.length_append, Placement.methodCount,
        Placement.length_lostMethods, List.map_congr_left hdropped, ← List.length_flatMap]
    classCount := by
      rw [← hclasses.length_eq, List.length_append, List.length_map, List.length_map,
        Placement.length_lostClasses] }

/-- **Placing loses and doubles nothing.** -/
theorem place_accounts (s : Store) (hnamespaces : (s.namespaces.map NamespaceRecord.name).Nodup)
    (hclasses : (s.classes.map ClassRecord.fullName).Nodup) :
    ∃ p, s.place = .ok p ∧ p.Accounts s := by
  have h : s.Distinct := ⟨hnamespaces, hclasses⟩
  exact ⟨s.placed, place_eq_ok_iff.2 ⟨h, rfl⟩, accounts_placed h⟩

/-- Records with points in their names, two of them the same, and orphans of both kinds. -/
def scattered : Store where
  methods := [⟨"Run", "A.B.C", .unstated, false, "int", [], [], [], "return 1"⟩,
    ⟨"Lost", "A.C", .unstated, false, "int", [], [], [], ""⟩,
    ⟨"Run", "A.B.C", .unstated, false, "int", [], [], [], "return 1"⟩,
    ⟨"Gone", "Nowhere.D", .unstated, false, "int", ["int"], [], [], ""⟩]
  classes := [⟨"C", "A.B", .everyone, false, []⟩, ⟨"D", "Nowhere", .everyone, false, []⟩,
    ⟨"D", "A", .everyone, false, []⟩]
  namespaces := [⟨"A", []⟩, ⟨"A.B", ["System"]⟩]

theorem scattered_accounts : (scattered.namespaces.map NamespaceRecord.name).Nodup ∧
    (scattered.classes.map ClassRecord.fullName).Nodup ∧
    ∃ p, scattered.place = .ok p ∧ p.Accounts scattered :=
  ⟨by decide +kernel, by decide +kernel,
    place_accounts scattered (by decide +kernel) (by decide +kernel)⟩

end Store

end Dossier
