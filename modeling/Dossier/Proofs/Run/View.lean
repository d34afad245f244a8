import Dossier.Proofs.Run.Ends
import Dossier.Proofs.Run.Named

/-!
# Names over slots

The slots of a frame, seen under the names that the binder has in scope.

* `view` is what is seen.  A name means in it the value of the slot that the binder has for it
  (`find?_view`).
* Storing in a fresh slot and declaring its name is declaring it with the value (`view_declare`,
  `view_set`); storing in the slot of a name is assigning to the name (`view_assign`).
* What an operation on values does in a run over names, it does in a run over slots: the activations
  of the two have one name.
-/

set_option autoImplicit false

namespace Dossier.Script

/-! ## Environments as views of slots -/

/-- The value in a slot. -/
def valueAt (slots : Slots) (i : Nat) : Value := slots[i]?.getD .null

/-- A scope with the values of its locals. -/
def viewScope (slots : Slots) (scope : Scope) : List (String × Variable) :=
  scope.map fun (name, l) ↦ (name, ⟨l.type, valueAt slots l.slot⟩)

/-- Scopes with the values of their locals. -/
def view (slots : Slots) (scopes : Scopes) : Env := scopes.map (viewScope slots)

variable {slots : Slots} {scopes : Scopes}

theorem lookup_viewScope (slots : Slots) (scope : Scope) (name : String) :
    (viewScope slots scope).lookup name =
      (scope.lookup name).map fun l ↦ ⟨l.type, valueAt slots l.slot⟩ := by
  induction scope with
  | nil => rfl
  | cons first rest ih =>
    obtain ⟨other, l⟩ := first
    simp only [viewScope, List.map_cons, List.lookup_cons]
    cases name == other with
    | true => rfl
    | false => exact ih

theorem find?_view (slots : Slots) (scopes : Scopes) (name : String) :
    (view slots scopes).find? name =
      (scopes.find? name).map fun l ↦ ⟨l.type, valueAt slots l.slot⟩ := by
  induction scopes with
  | nil => rfl
  | cons scope outer ih =>
    simp only [Env.find?, Scopes.find?, view, List.map_cons, List.findSome?_cons,
      lookup_viewScope]
    cases scope.lookup name with
    | some l => rfl
    | none => exact ih

theorem has_view (slots : Slots) (scopes : Scopes) :
    (view slots scopes).has = Surroundings.hiddenBy scopes := by
  funext name
  rw [Env.has, find?_view, Option.isSome_map, Surroundings.hiddenBy]

theorem view_declare (slots : Slots) (scopes : Scopes) (name : String) (l : Local) :
    view slots (scopes.declare name l) =
      (view slots scopes).declare name ⟨l.type, valueAt slots l.slot⟩ := by
  cases scopes <;> rfl

theorem valueAt_set_self {i : Nat} (h : i < slots.size) (v : Value) :
    valueAt (slots.setIfInBounds i v) i = v := by
  rw [valueAt, Array.getElem?_setIfInBounds_self_of_lt h, Option.getD_some]

theorem valueAt_set_ne {i j : Nat} (h : i ≠ j) (v : Value) :
    valueAt (slots.setIfInBounds i v) j = valueAt slots j := by
  rw [valueAt, Array.getElem?_setIfInBounds_ne h, valueAt]

theorem viewScope_set {i : Nat} {scope : Scope} (h : ∀ b ∈ scope, b.2.slot ≠ i) (v : Value) :
    viewScope (slots.setIfInBounds i v) scope = viewScope slots scope := by
  refine List.map_congr_left fun b hb ↦ ?_
  simp only [valueAt_set_ne (h _ hb).symm]

/-- A slot that no local in scope has is not seen. -/
theorem view_set {i : Nat} (h : ∀ l ∈ scopes.locals, l.slot ≠ i) (v : Value) :
    view (slots.setIfInBounds i v) scopes = view slots scopes := by
  refine List.map_congr_left fun scope hscope ↦ viewScope_set (fun b hb ↦ ?_) v
  exact h b.2 (List.mem_map_of_mem (List.mem_flatten_of_mem hscope hb))

theorem viewScope_assign {scope : Scope} {name : String} {l : Local}
    (hl : scope.lookup name = some l) (hlt : l.slot < slots.size)
    (hapart : (scope.map Prod.snd).Pairwise fun l l' ↦ l.slot ≠ l'.slot) (v : Value) :
    viewScope (slots.setIfInBounds l.slot v) scope =
      assignFirst name v (viewScope slots scope) := by
  induction scope with
  | nil => exact absurd hl (by simp)
  | cons first rest ih =>
    obtain ⟨other, l'⟩ := first
    rw [List.map_cons, List.pairwise_cons] at hapart
    obtain ⟨hfirst, hrest⟩ := hapart
    rw [List.lookup_cons] at hl
    simp only [viewScope, List.map_cons, assignFirst]
    cases hname : name == other with
    | true =>
      simp only [hname] at hl
      obtain rfl := Option.some.inj hl
      have hsame : viewScope (slots.setIfInBounds l'.slot v) rest = viewScope slots rest :=
        viewScope_set (fun b hb ↦ (hfirst b.2 (List.mem_map_of_mem hb)).symm) v
      simp only [if_true, valueAt_set_self hlt]
      exact congrArg _ hsame
    | false =>
      simp only [hname] at hl
      have hne : l.slot ≠ l'.slot := by
        obtain ⟨l₁, l₂, hmem, -⟩ := List.lookup_eq_some_iff.1 hl
        exact (hfirst l (by simp [hmem])).symm
      simp only [Bool.false_eq_true, if_false, valueAt_set_ne hne]
      exact congrArg _ (ih hl hrest)

/-- A slot of a local in scope is seen under the name that means it. -/
theorem view_assign {name : String} {l : Local} (hl : scopes.find? name = some l)
    (hlt : l.slot < slots.size)
    (hapart : scopes.locals.Pairwise fun l l' ↦ l.slot ≠ l'.slot) (v : Value) :
    view (slots.setIfInBounds l.slot v) scopes = (view slots scopes).assign name v := by
  induction scopes with
  | nil => exact absurd hl (by simp [Scopes.find?])
  | cons scope outer ih =>
    simp only [Scopes.locals, List.flatten_cons, List.map_append, List.pairwise_append] at hapart
    obtain ⟨hscope, houter, hcross⟩ := hapart
    simp only [Scopes.find?, List.findSome?_cons] at hl
    simp only [view, List.map_cons, Env.assign, lookup_viewScope, Option.isSome_map]
    cases hlookup : scope.lookup name with
    | some l' =>
      simp only [hlookup] at hl
      obtain rfl := Option.some.inj hl
      have hsame : view (slots.setIfInBounds l'.slot v) outer = view slots outer := by
        refine view_set (fun l hl ↦ ?_) v
        obtain ⟨l₁, l₂, hmem, -⟩ := List.lookup_eq_some_iff.1 hlookup
        exact (hcross l' (by simp [hmem]) l hl).symm
      simp only [Option.isSome_some, if_true]
      rw [viewScope_assign hlookup hlt hscope v]
      exact congrArg _ hsame
    | none =>
      simp only [hlookup] at hl
      have hsame : viewScope (slots.setIfInBounds l.slot v) scope = viewScope slots scope := by
        refine viewScope_set (fun b hb ↦ ?_) v
        exact hcross b.2 (List.mem_map_of_mem hb) l (Scopes.mem_locals_of_find? hl)
      simp only [Option.isSome_none, Bool.false_eq_true, if_false]
      rw [hsame]
      exact congrArg _ (ih hl houter)

/-! ## Runs over slots, seen by names -/

/-- How a statement over slots ends, as the names in scope after it show it. -/
def Ending.ofSlots (scopes : Scopes) (r : Slots × Flow) : Ending :=
  match r.2 with
  | .next => .next (view r.1 scopes)
  | .result v => .result v

namespace Named

/-- The activation of the bound method. -/
def Activity.bound (t : Activity) (p : BoundProgram) : Activation := ⟨p, t.site.bound, t.self⟩

/-- What the body of the method can refer to. -/
def Activity.surroundings (t : Activity) : Surroundings := t.site.surroundings

namespace Activity

variable (t : Activity) (p : BoundProgram)

@[simp] theorem fail_bound {α : Type} (fault : Fault) :
    (t.bound p).fail fault = (t.voice.fail fault : Run α) := rfl

@[simp] theorem coerce_bound (type : ValueType) (v : Value) :
    (t.bound p).coerce type v = t.voice.coerce type v := rfl

@[simp] theorem parameterSlots_bound (ps : List BoundParam) (args : List Value) :
    (t.bound p).parameterSlots ps args = t.voice.parameterSlots ps args := by
  induction ps generalizing args with
  | nil => rfl
  | cons q qs ih => simp only [Activation.parameterSlots, ih, fail_bound, coerce_bound]

end Activity

end Named

end Dossier.Script
