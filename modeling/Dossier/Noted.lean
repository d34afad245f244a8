/-!
# Results with notes

A `Noted ε α` is a result that is always there, and notes on what was wrong on the way to it, in the
order in which they were made.  Steps that follow each other join their notes.
-/

set_option autoImplicit false

namespace Dossier

universe u

/-- A result with notes. -/
structure Noted (ε : Type) (α : Type u) where
  /-- The result. -/
  value : α
  /-- The notes. -/
  notes : List ε

namespace Noted

variable {ε : Type} {α β : Type u}

/-- One note and no result. -/
def note (e : ε) : Noted ε PUnit := ⟨⟨⟩, [e]⟩

/-- A note if a condition holds. -/
def noteIf (condition : Bool) (e : ε) : Noted ε PUnit := ⟨⟨⟩, if condition then [e] else []⟩

/-- A result without notes. -/
protected def pure (a : α) : Noted ε α := ⟨a, []⟩

/-- A step and what is made of its result. -/
protected def bind (x : Noted ε α) (f : α → Noted ε β) : Noted ε β :=
  let y := f x.value
  ⟨y.value, x.notes ++ y.notes⟩

instance : Monad (Noted ε) where
  pure := Noted.pure
  bind := Noted.bind

@[simp] theorem value_pure (a : α) : (pure a : Noted ε α).value = a := rfl

@[simp] theorem notes_pure (a : α) : (pure a : Noted ε α).notes = [] := rfl

@[simp] theorem value_bind (x : Noted ε α) (f : α → Noted ε β) :
    (x >>= f).value = (f x.value).value := rfl

@[simp] theorem notes_bind (x : Noted ε α) (f : α → Noted ε β) :
    (x >>= f).notes = x.notes ++ (f x.value).notes := rfl

/-- The results of a step on each element, with all notes. -/
def forEach {α β : Type} (f : α → Noted ε β) : List α → Noted ε (List β)
  | [] => pure []
  | a :: as => do
    let b ← f a
    let bs ← forEach f as
    pure (b :: bs)

end Noted

end Dossier
