/-!
# Tables

A `Table κ α` finds values by their keys and keeps its entries in the order in which their keys were
first entered.

* `Table.alter` is the only way in: it works on what is under a key, and enters a new key behind all
  others.  So no key is entered twice, which is part of the type.
* `Table.find?_alter` and `Table.keys_alter` say all that altering does.
-/

set_option autoImplicit false

namespace Dossier

/-- Values under keys, in the order in which the keys were first entered. -/
structure Table (κ α : Type) where
  /-- The keys and what is under them. -/
  entries : List (κ × α)
  /-- No key is entered twice. -/
  distinct : (entries.map Prod.fst).Nodup

namespace Table

variable {κ α β : Type}

/-- The table without entries. -/
def empty : Table κ α := ⟨[], .nil⟩

/-- The keys, in the order in which they were entered. -/
def keys (t : Table κ α) : List κ := t.entries.map Prod.fst

/-- What is under the keys, in the same order. -/
def values (t : Table κ α) : List α := t.entries.map Prod.snd

@[simp] theorem entries_empty : (empty : Table κ α).entries = [] := rfl

@[simp] theorem keys_empty : (empty : Table κ α).keys = [] := rfl

@[simp] theorem values_empty : (empty : Table κ α).values = [] := rfl

section

variable [DecidableEq κ]

/-- What is under a key. -/
def find? (t : Table κ α) (k : κ) : Option α :=
  (t.entries.find? fun e ↦ e.1 = k).map Prod.snd

@[simp] theorem find?_empty (k : κ) : (empty : Table κ α).find? k = none := rfl

theorem find?_eq_none_iff {t : Table κ α} {k : κ} : t.find? k = none ↔ k ∉ t.keys := by
  rw [find?, Option.map_eq_none_iff, List.find?_eq_none, keys, List.mem_map]
  constructor
  · rintro h ⟨e, he, rfl⟩
    exact h e he (by simp)
  · intro h e he hk
    exact h ⟨e, he, by simpa using hk⟩

theorem mem_entries_iff {t : Table κ α} {k : κ} {a : α} :
    (k, a) ∈ t.entries ↔ t.find? k = some a := by
  obtain ⟨es, hes⟩ := t
  simp only [find?]
  induction es with
  | nil => simp
  | cons e es ih =>
    obtain ⟨hfst, hrest⟩ := List.nodup_cons.1 hes
    rw [List.mem_cons, List.find?_cons]
    by_cases hk : e.1 = k
    · subst hk
      have hno : (e.1, a) ∉ es := fun h ↦ hfst (List.mem_map.2 ⟨_, h, rfl⟩)
      simp [hno, Prod.ext_iff, eq_comm]
    · have hne : (k, a) ≠ e := fun h ↦ hk (h ▸ rfl)
      simpa [hk, hne] using ih hrest

/-- Entries with `f` done to what is under a key; a new key comes last. -/
def alterEntries (k : κ) (f : Option α → α) : List (κ × α) → List (κ × α)
  | [] => [(k, f none)]
  | e :: es => if e.1 = k then (k, f (some e.2)) :: es else e :: alterEntries k f es

theorem keys_alterEntries (k : κ) (f : Option α → α) (es : List (κ × α)) :
    (alterEntries k f es).map Prod.fst =
      if k ∈ es.map Prod.fst then es.map Prod.fst else es.map Prod.fst ++ [k] := by
  induction es with
  | nil => simp [alterEntries]
  | cons e es ih =>
    rw [alterEntries]
    by_cases he : e.1 = k
    · subst he
      simp
    · rw [if_neg he, List.map_cons, ih]
      have hk : k ≠ e.1 := fun h ↦ he h.symm
      by_cases hmem : k ∈ es.map Prod.fst
      · rw [if_pos hmem, List.map_cons, if_pos (List.mem_cons_of_mem _ hmem)]
      · rw [if_neg hmem, List.map_cons, if_neg (by simpa [hk] using hmem), List.cons_append]

theorem nodup_alterEntries {k : κ} {f : Option α → α} {es : List (κ × α)}
    (h : (es.map Prod.fst).Nodup) : ((alterEntries k f es).map Prod.fst).Nodup := by
  rw [keys_alterEntries]
  split
  · exact h
  · rename_i hmem
    refine List.nodup_append.2 ⟨h, by simp, fun a ha b hb hab ↦ ?_⟩
    rw [List.mem_singleton.1 hb] at hab
    exact hmem (hab ▸ ha)

/-- The table with `f` done to what is under a key; a new key comes last. -/
def alter (t : Table κ α) (k : κ) (f : Option α → α) : Table κ α :=
  ⟨alterEntries k f t.entries, nodup_alterEntries t.distinct⟩

/-- The table with a value under a key, in place of what was under it. -/
def insert (t : Table κ α) (k : κ) (a : α) : Table κ α := t.alter k fun _ ↦ a

theorem keys_alter (t : Table κ α) (k : κ) (f : Option α → α) :
    (t.alter k f).keys = if k ∈ t.keys then t.keys else t.keys ++ [k] :=
  keys_alterEntries k f t.entries

theorem find?_alter (t : Table κ α) (k k' : κ) (f : Option α → α) :
    (t.alter k f).find? k' = if k = k' then some (f (t.find? k)) else t.find? k' := by
  obtain ⟨es, hes⟩ := t
  simp only [find?, alter]
  induction es with
  | nil => by_cases hk : k = k' <;> simp [alterEntries, hk]
  | cons e es ih =>
    specialize ih (List.nodup_cons.1 hes).2
    rw [alterEntries]
    by_cases he : e.1 = k
    · subst he
      by_cases hk : e.1 = k' <;> simp [hk]
    · rw [if_neg he, List.find?_cons, List.find?_cons, List.find?_cons]
      by_cases hk : e.1 = k'
      · have hne : k ≠ k' := fun h ↦ he (hk.trans h.symm)
        simp [hk, hne]
      · simpa [he, hk] using ih

theorem keys_insert (t : Table κ α) (k : κ) (a : α) :
    (t.insert k a).keys = if k ∈ t.keys then t.keys else t.keys ++ [k] :=
  t.keys_alter k _

theorem find?_insert (t : Table κ α) (k k' : κ) (a : α) :
    (t.insert k a).find? k' = if k = k' then some a else t.find? k' :=
  t.find?_alter k k' _

end

end Table

end Dossier
