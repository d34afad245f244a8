import Dossier.CompileUnit
import Mathlib.Data.List.Induction
import Mathlib.Data.List.Nodup

/-!
# First occurrences

`firstSeen` leaves of each element its first occurrence.

* `isFirstSeen_firstSeen`: that is, it has each element of the list once, in the order in which they
  first occur.
* `firstSeen_flatMap`: to leave out repetitions within parts of a list beforehand changes nothing.
-/

set_option autoImplicit false

namespace Dossier

variable {α β : Type} [BEq α] [LawfulBEq α]

/-- The second list has each element of the first once, in the order of first occurrences. -/
structure IsFirstSeen (xs ys : List α) : Prop where
  /-- No element is there twice. -/
  nodup : ys.Nodup
  /-- All elements are there. -/
  mem_iff : ∀ x, x ∈ ys ↔ x ∈ xs
  /-- What occurs first comes first. -/
  ordered : ys.Pairwise fun x y ↦ xs.idxOf x < xs.idxOf y

/-- What was seen before, and the elements of a list that were not, as they are first seen. -/
def seeAll (seen xs : List α) : List α :=
  xs.foldl (fun seen x ↦ if seen.contains x then seen else seen ++ [x]) seen

omit [LawfulBEq α] in
theorem seeAll_nil (xs : List α) : seeAll [] xs = firstSeen xs := rfl

omit [LawfulBEq α] in
theorem seeAll_append (seen xs ys : List α) :
    seeAll seen (xs ++ ys) = seeAll (seeAll seen xs) ys := List.foldl_append

omit [LawfulBEq α] in
theorem seeAll_singleton (seen : List α) (x : α) :
    seeAll seen [x] = if seen.contains x then seen else seen ++ [x] := rfl

theorem mem_seeAll {seen xs : List α} {x : α} : x ∈ seeAll seen xs ↔ x ∈ seen ∨ x ∈ xs := by
  induction xs generalizing seen with
  | nil => simp [seeAll]
  | cons y ys ih =>
    rw [← List.singleton_append, seeAll_append, ih, seeAll_singleton, List.mem_append,
      List.mem_singleton]
    by_cases hy : y ∈ seen
    · rw [if_pos (List.contains_iff_mem.2 hy)]
      constructor
      · rintro (h | h)
        · exact .inl h
        · exact .inr (.inr h)
      · rintro (h | rfl | h)
        · exact .inl h
        · exact .inl hy
        · exact .inr h
    · rw [if_neg (by simpa using hy), List.mem_append, List.mem_singleton, or_assoc]

theorem mem_firstSeen {xs : List α} {x : α} : x ∈ firstSeen xs ↔ x ∈ xs := by
  rw [← seeAll_nil, mem_seeAll]
  simp

/-- The last element is left out if it occurred before, and comes last if it did not. -/
theorem firstSeen_concat (xs : List α) (x : α) :
    firstSeen (xs ++ [x]) = if x ∈ xs then firstSeen xs else firstSeen xs ++ [x] := by
  rw [← seeAll_nil, seeAll_append, seeAll_nil, seeAll_singleton]
  by_cases hx : x ∈ xs
  · rw [if_pos hx, if_pos (List.contains_iff_mem.2 (mem_firstSeen.2 hx))]
  · rw [if_neg hx, if_neg]
    simpa [mem_firstSeen] using hx

/-- **The first occurrences of the elements, in their order.** -/
theorem isFirstSeen_firstSeen (xs : List α) : IsFirstSeen xs (firstSeen xs) := by
  induction xs using List.reverseRecOn with
  | nil => exact ⟨.nil, fun _ ↦ Iff.rfl, .nil⟩
  | append_singleton xs x ih =>
    have hold : (firstSeen xs).Pairwise fun y z ↦ (xs ++ [x]).idxOf y < (xs ++ [x]).idxOf z := by
      refine ih.ordered.imp_of_mem fun hy hz hlt ↦ ?_
      rwa [List.idxOf_append_of_mem ((ih.mem_iff _).1 hy),
        List.idxOf_append_of_mem ((ih.mem_iff _).1 hz)]
    rw [firstSeen_concat]
    by_cases hx : x ∈ xs
    · rw [if_pos hx]
      refine ⟨ih.nodup, fun y ↦ ?_, hold⟩
      rw [ih.mem_iff, List.mem_append, List.mem_singleton]
      exact ⟨.inl, fun h ↦ h.elim id fun h ↦ h ▸ hx⟩
    · have hnew : ∀ y ∈ firstSeen xs, y ≠ x := fun y hy heq ↦ hx (heq ▸ (ih.mem_iff y).1 hy)
      rw [if_neg hx]
      refine ⟨?_, fun y ↦ ?_, ?_⟩
      · refine List.nodup_append.2 ⟨ih.nodup, by simp, fun y hy z hz ↦ ?_⟩
        rw [List.mem_singleton.1 hz]
        exact hnew y hy
      · rw [List.mem_append, List.mem_append, ih.mem_iff]
      · refine List.pairwise_append.2 ⟨hold, by simp, fun y hy z hz ↦ ?_⟩
        have hy := (ih.mem_iff y).1 hy
        rw [List.mem_singleton.1 hz, List.idxOf_append_of_mem hy, List.idxOf_append_of_notMem hx]
        exact Nat.lt_of_lt_of_le (List.idxOf_lt_length_of_mem hy) (Nat.le_add_right ..)

/-- Repetitions within what is seen do not matter. -/
theorem seeAll_firstSeen (seen xs : List α) : seeAll seen (firstSeen xs) = seeAll seen xs := by
  induction xs using List.reverseRecOn with
  | nil => rfl
  | append_singleton xs x ih =>
    rw [firstSeen_concat]
    by_cases hx : x ∈ xs
    · have hseen : x ∈ seeAll seen xs := mem_seeAll.2 (.inr hx)
      rw [if_pos hx, ih, seeAll_append, seeAll_singleton, if_pos (List.contains_iff_mem.2 hseen)]
    · rw [if_neg hx, seeAll_append, ih, seeAll_append]

theorem seeAll_flatMap (f : β → List α) (xs : List β) (seen : List α) :
    seeAll seen (xs.flatMap fun x ↦ firstSeen (f x)) = seeAll seen (xs.flatMap f) := by
  induction xs generalizing seen with
  | nil => rfl
  | cons x xs ih =>
    rw [List.flatMap_cons, List.flatMap_cons, seeAll_append, seeAll_append, seeAll_firstSeen, ih]

/-- **Repetitions within parts of a list do not matter.** -/
theorem firstSeen_flatMap (f : β → List α) (xs : List β) :
    firstSeen (xs.flatMap fun x ↦ firstSeen (f x)) = firstSeen (xs.flatMap f) :=
  seeAll_flatMap f xs []

end Dossier
