import Dossier.Proofs.CompileUnit.FirstSeen
import Dossier.Proofs.Placement.Passes

/-!
# Conflicts are the names that occur more than once

Names are counted with tables, one for the namespaces and one for the classes.  What comes of it is
said here by the lists of names alone.

* `AreRepeated names found` says that `found` has the names that occur more than once, each of them
  once, in the order in which they first occur.
* The keys of a table that is made element by element are the first occurrences of the elements' keys
  (`Table.keys_foldl_alter`), and what a table of counts tells of each is its number of occurrences
  (`map_filter_counts`).
* `Store.place_conflicts_exact` is the result.  What counts for classes is the text that their two
  names make together, so that classes conflict also when that text is cut differently.
-/

set_option autoImplicit false

namespace Dossier

/-- The second list has the names that occur more than once in the first, each of them once, in the
order of their first occurrences. -/
structure AreRepeated (names found : List String) : Prop where
  /-- No name is there twice. -/
  nodup : found.Nodup
  /-- The names are those that occur more than once. -/
  mem_iff : ∀ name, name ∈ found ↔ 1 < names.count name
  /-- What occurs first comes first. -/
  ordered : found.Pairwise fun a b ↦ names.idxOf a < names.idxOf b

theorem AreRepeated.ne_nil_iff {names found : List String} (h : AreRepeated names found) :
    found ≠ [] ↔ ∃ name, 1 < names.count name := by
  simp only [Ne, List.eq_nil_iff_forall_not_mem, not_forall, not_not, h.mem_iff]

/-- The first occurrences, without those of names that occur once. -/
theorem IsFirstSeen.areRepeated {names seen : List String} (h : IsFirstSeen names seen) :
    AreRepeated names (seen.filter fun name ↦ 1 < names.count name) where
  nodup := h.nodup.filter _
  mem_iff name := by
    rw [List.mem_filter, h.mem_iff, decide_eq_true_eq]
    refine and_iff_right_of_imp fun hcount ↦ ?_
    exact List.count_pos_iff.1 (Nat.lt_of_succ_lt hcount)
  ordered := h.ordered.filter _

/-! ## Counting with tables -/

namespace Table

variable {κ α β : Type} [DecidableEq κ]

/-- Keys are entered when they are first seen. -/
theorem keys_foldl_alter (key : β → κ) (f : β → Option α → α) (xs : List β) (t : Table κ α) :
    (xs.foldl (fun t x ↦ t.alter (key x) (f x)) t).keys = seeAll t.keys (xs.map key) := by
  induction xs generalizing t with
  | nil => rfl
  | cons x xs ih =>
    rw [List.foldl_cons, ih, keys_alter, List.map_cons, ← List.singleton_append (l := xs.map key),
      seeAll_append, seeAll_singleton]
    simp only [List.contains_iff_mem]

end Table

/-- What a table of counts tells of the names that it has counted more than once. -/
theorem map_filter_counts {α γ : Type} {t : Table String α} (count : α → Nat) {names : List String}
    (h : ∀ name, (t.find? name).map count = if name ∈ names then some (names.count name) else none)
    (g : String → Nat → γ) :
    (t.entries.filter fun e ↦ 1 < count e.2).map (fun e ↦ g e.1 (count e.2)) =
      (t.keys.filter fun name ↦ 1 < names.count name).map fun name ↦ g name (names.count name) := by
  have hcount : ∀ e ∈ t.entries, count e.2 = names.count e.1 := by
    intro e he
    have hname := h e.1
    rw [Table.mem_entries_iff.1 he, Option.map_some] at hname
    split at hname
    · exact Option.some.inj hname
    · cases hname
  have hfilter : (t.entries.filter fun e ↦ 1 < count e.2) =
      t.entries.filter fun e ↦ 1 < names.count e.1 :=
    List.filter_congr fun e he ↦ by rw [hcount e he]
  rw [hfilter, Table.keys, List.filter_map, List.map_map]
  refine List.map_congr_left fun e he ↦ ?_
  rw [hcount e (List.mem_of_mem_filter he), Function.comp_apply]

namespace Store

variable {s : Store}

/-! ## The names of a store -/

/-- The names of the namespaces. -/
def namespaceNames (s : Store) : List String := s.namespaces.map NamespaceRecord.name

/-- The full names of the classes: the name of each behind that of its namespace, with a point
between them. -/
def fullNames (s : Store) : List String := s.classes.map fun c ↦ c.owner ++ "." ++ c.name

theorem fullNames_eq (s : Store) : s.fullNames = s.classes.map ClassRecord.fullName := rfl

/-- The names of the table are seen first in this order. -/
theorem isFirstSeen_tally (names : List String) : IsFirstSeen names (tally names).keys := by
  have hkeys := Table.keys_foldl_alter (fun name : String ↦ name) (fun _ n ↦ n.getD 0 + 1) names
    .empty
  rw [tally, hkeys, List.map_id', Table.keys_empty, seeAll_nil]
  exact isFirstSeen_firstSeen names

theorem isFirstSeen_classIndex (s : Store) : IsFirstSeen s.fullNames s.classIndex.keys := by
  have hkeys := Table.keys_foldl_alter (fun x : ClassRecord × Nat ↦ x.1.fullName)
    (fun x ↦ Positions.add x.2) s.classes.zipIdx .empty
  have hnames : s.classes.zipIdx.map (fun x ↦ x.1.fullName) = s.fullNames := by
    have hmap := List.map_map (f := Prod.fst) (g := ClassRecord.fullName) (l := s.classes.zipIdx)
    rw [List.zipIdx_map_fst] at hmap
    exact hmap.symm
  rw [classIndex, hkeys, hnames, Table.keys_empty, seeAll_nil]
  exact isFirstSeen_firstSeen _

/-- **The conflicts tell how often names occur**, those of namespaces in front of those of classes. -/
theorem conflicts_eq (s : Store) : ∃ spaces classes,
    AreRepeated s.namespaceNames spaces ∧ AreRepeated s.fullNames classes ∧
      s.conflicts = spaces.map (fun name ↦ .ofNamespace name (s.namespaceNames.count name)) ++
        classes.map fun name ↦ .ofClass name (s.fullNames.count name) := by
  refine ⟨_, _, (isFirstSeen_tally _).areRepeated, (isFirstSeen_classIndex s).areRepeated, ?_⟩
  have hcounts (name : String) : ((tally s.namespaceNames).find? name).map id =
      if name ∈ s.namespaceNames then some (s.namespaceNames.count name) else none := by
    rw [Option.map_id]
    exact find?_tally _ name
  have hspaces := map_filter_counts id hcounts Conflict.ofNamespace
  have hclasses := map_filter_counts Positions.count s.count_classIndex Conflict.ofClass
  rw [← fullNames_eq] at hclasses
  rw [conflicts, hclasses, ← hspaces]
  rfl

/-! ## The result -/

/-- There is a conflict exactly if some name occurs more than once. -/
theorem conflicts_ne_nil_iff (s : Store) : s.conflicts ≠ [] ↔
    (∃ name, 1 < s.namespaceNames.count name) ∨ ∃ name, 1 < s.fullNames.count name := by
  obtain ⟨spaces, classes, hspaces, hclasses, heq⟩ := s.conflicts_eq
  rw [heq, ← hspaces.ne_nil_iff, ← hclasses.ne_nil_iff, Ne, List.append_eq_nil_iff,
    List.map_eq_nil_iff, List.map_eq_nil_iff, not_and_or]

/-- What placing fails with are the conflicts, if there are any. -/
theorem place_eq_error_iff {conflicts : List Conflict} :
    s.place = .error conflicts ↔ s.conflicts = conflicts ∧ conflicts ≠ [] := by
  rw [place]
  cases s.conflicts with
  | nil => simp +contextual [eq_comm]
  | cons c cs =>
    rw [Except.error.injEq]
    exact (and_iff_left_of_imp fun h ↦ h ▸ List.cons_ne_nil c cs).symm

/-- Two classes with one full name count as two occurrences of it. -/
theorem one_lt_count_fullNames {c d : ClassRecord} (h : [c, d].Sublist s.classes)
    (hname : c.owner ++ "." ++ c.name = d.owner ++ "." ++ d.name) :
    1 < s.fullNames.count (c.owner ++ "." ++ c.name) := by
  have hnames : [c.owner ++ "." ++ c.name, c.owner ++ "." ++ c.name].Sublist s.fullNames := by
    have hmap := h.map fun c ↦ c.owner ++ "." ++ c.name
    rwa [List.map_cons, List.map_singleton, ← hname] at hmap
  have hcount := hnames.count_le (c.owner ++ "." ++ c.name)
  rwa [List.count_cons_self, List.count_singleton_self] at hcount

/-- **Conflicts are reported exactly.**  Placing fails exactly if some name of a namespace or full name
of a class occurs more than once.  Then it tells of every such name once, of no other, and how often it
occurs, of the namespaces first and in the order of first occurrences; and what counts of two classes
is the text of their full names, however it is made of two names. -/
theorem place_conflicts_exact (s : Store) :
    ((∃ conflicts, s.place = .error conflicts) ↔
      (∃ name, 1 < s.namespaceNames.count name) ∨ ∃ name, 1 < s.fullNames.count name) ∧
    (∀ conflicts, s.place = .error conflicts → ∃ spaces classes,
      AreRepeated s.namespaceNames spaces ∧ AreRepeated s.fullNames classes ∧
        conflicts = spaces.map (fun name ↦ .ofNamespace name (s.namespaceNames.count name)) ++
          classes.map fun name ↦ .ofClass name (s.fullNames.count name)) ∧
    ∀ c d : ClassRecord, [c, d].Sublist s.classes →
      c.owner ++ "." ++ c.name = d.owner ++ "." ++ d.name →
        ∃ conflicts count, s.place = .error conflicts ∧ 1 < count ∧
          .ofClass (c.owner ++ "." ++ c.name) count ∈ conflicts := by
  have hfails : (∃ conflicts, s.place = .error conflicts) ↔ s.conflicts ≠ [] := by
    simp [place_eq_error_iff]
  refine ⟨hfails.trans s.conflicts_ne_nil_iff, fun conflicts h ↦ ?_, fun c d h hname ↦ ?_⟩
  · obtain ⟨rfl, -⟩ := place_eq_error_iff.1 h
    exact s.conflicts_eq
  · have hcount := one_lt_count_fullNames h hname
    have hne := s.conflicts_ne_nil_iff.2 (.inr ⟨_, hcount⟩)
    refine ⟨s.conflicts, _, place_eq_error_iff.2 ⟨rfl, hne⟩, hcount, ?_⟩
    obtain ⟨spaces, classes, -, hclasses, heq⟩ := s.conflicts_eq
    rw [heq]
    exact List.mem_append_right _ (List.mem_map_of_mem ((hclasses.mem_iff _).2 hcount))

/-- A class whose full name is that of `innerSaw`, cut at another point. -/
def outerSaw : ClassRecord := ⟨"Saw", "Acme.Tools", .everyone, false, []⟩

/-- A class with a point in its name. -/
def innerSaw : ClassRecord := ⟨"Tools.Saw", "Acme", .owner, false, []⟩

/-- A namespace that is declared twice, and two classes with one full name. -/
def clashing : Store where
  methods := []
  classes := [outerSaw, ⟨"Widget", "Acme", .everyone, false, []⟩, innerSaw]
  namespaces := [⟨"Acme", []⟩, ⟨"Acme.Tools", []⟩, ⟨"Acme", ["System"]⟩]

/-- The two names are told of, the namespace first, and the namespace and class that occur once are
not. -/
theorem clashing_conflicts :
    clashing.place = .error [.ofNamespace "Acme" 2, .ofClass "Acme.Tools.Saw" 2] ∧
      [outerSaw, innerSaw].Sublist clashing.classes ∧
      outerSaw.owner ++ "." ++ outerSaw.name = innerSaw.owner ++ "." ++ innerSaw.name ∧
      ∃ spaces classes, AreRepeated clashing.namespaceNames spaces ∧
        AreRepeated clashing.fullNames classes ∧
        [Conflict.ofNamespace "Acme" 2, .ofClass "Acme.Tools.Saw" 2] =
          spaces.map (fun name ↦ .ofNamespace name (clashing.namespaceNames.count name)) ++
            classes.map fun name ↦ .ofClass name (clashing.fullNames.count name) := by
  have hplace : clashing.place = .error [.ofNamespace "Acme" 2, .ofClass "Acme.Tools.Saw" 2] := by
    decide +kernel
  refine ⟨hplace, by decide, by decide +kernel, ?_⟩
  exact (place_conflicts_exact clashing).2.1 _ hplace

end Store

end Dossier
