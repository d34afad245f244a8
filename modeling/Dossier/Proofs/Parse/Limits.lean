import Dossier.Proofs.Parse.ExprComplete

/-!
# When expressions meet a limit

A limit is met by tokens that go beyond it, and by no others.  `Obstacle.Due room slack ts o` says this
of an obstacle `o` that a parser with `room` levels below it meets in the tokens `ts`:

* about a number only where a number stands that does not fit;
* about nesting only where there are more levels to go than `room`.  Each token opens two levels at
  most, one for a call and one for the expression in its parentheses; an expression takes one level
  before its first token, which is what `slack` is for.

`ExprLevel.limited_ofRoom` states it for all parsers of a level.
-/

set_option autoImplicit false

namespace Dossier.Script

open Text (Span)

theorem bind_eq_error_iff {ε α β : Type} {x : Except ε α} {f : α → Except ε β} {o : ε} :
    (x >>= f) = .error o ↔ x = .error o ∨ ∃ a, x = .ok a ∧ f a = .error o := by
  cases x with
  | error e =>
    constructor
    · intro h
      cases h
      exact .inl rfl
    · rintro (⟨⟨⟩⟩ | ⟨_, ⟨⟩, _⟩)
      rfl
  | ok a =>
    constructor
    · exact fun h ↦ .inr ⟨a, rfl, h⟩
    · rintro (⟨⟨⟩⟩ | ⟨_, ⟨⟩, h⟩)
      exact h

/-- The number is too large for the integers of a script. -/
def Token.TooLarge (t : Token) : Prop :=
  ∃ digits, t.kind = .int digits ∧ Number.twoTo 63 ≤ Number.natOfDigits digits.toList

namespace Obstacle

/-- The obstacle is about a limit only if the tokens go beyond it. -/
structure Due (room slack : Nat) (ts : List Token) (o : Obstacle) : Prop where
  nesting : o.complaint = .tooComplex → room < 2 * ts.length + slack
  number : o.complaint = .numberTooLarge → ∃ t ∈ ts, t.TooLarge

namespace Due

variable {room room' slack slack' : Nat} {ts us : List Token} {o : Obstacle}

/-- A soft obstacle is about no limit. -/
theorem of_soft (h : o.isFinal = false) : o.Due room slack ts := by
  constructor <;> intro hcomplaint <;> rw [isFinal, hcomplaint] at h <;> cases h

/-- What goes beyond a limit still does behind other tokens. -/
theorem behind (h : o.Due room slack us) (hus : us <:+ ts)
    (hroom : room' + 2 * us.length + slack ≤ room + 2 * ts.length + slack') :
    o.Due room' slack' ts where
  nesting hcomplaint := by
    have := h.nesting hcomplaint
    omega
  number hcomplaint := by
    obtain ⟨t, ht, hlarge⟩ := h.number hcomplaint
    exact ⟨t, hus.subset ht, hlarge⟩

/-- The last of the levels goes no deeper. -/
theorem tooComplex (t : Token) (h : room < 2 * ts.length + slack) :
    Due room slack ts ⟨.tooComplex, t⟩ :=
  ⟨fun _ ↦ h, nofun⟩

end Due

end Obstacle

theorem ne_nil_of_atSymbol {mark : Symbol} {ts : List Token} (h : atSymbol mark ts = true) :
    ts ≠ [] := by
  rintro rfl
  cases h

theorem length_drop_one {ts : List Token} (h : ts ≠ []) : (ts.drop 1).length + 1 = ts.length := by
  cases ts with
  | nil => exact absurd rfl h
  | cons t ts => rfl

theorem due_takeSymbol {mark : Symbol} {ts us : List Token} {o : Obstacle} {room slack : Nat}
    (h : takeSymbol mark us = .error o) : o.Due room slack ts := by
  rw [takeSymbol] at h
  split at h <;> cases h
  exact .of_soft rfl

theorem due_takeName {ts us : List Token} {o : Obstacle} {room slack : Nat}
    (h : takeName us = .error o) : o.Due room slack ts := by
  unfold takeName at h
  split at h <;> cases h
  exact .of_soft rfl

namespace ExprLevel

/-- The limits that the parsers of a level meet are due, with `room` levels below it. -/
structure Limited (level : ExprLevel) (room : Nat) : Prop where
  expression : ∀ {ts o}, level.expression ts = .error o → o.Due room 1 ts
  binary : ∀ {least ts o}, level.binary least ts = .error o → o.Due room 0 ts
  operators : ∀ {least left ts o}, level.operators least left ts = .error o → o.Due room 0 ts
  unary : ∀ {ts o}, level.unary ts = .error o → o.Due room 0 ts
  suffixes : ∀ {base ts o}, level.suffixes base ts = .error o → o.Due room 0 ts

/-- The level below one with so much room, if there is one, meets limits that are due. -/
def LimitedBelow (room : Nat) : Prop :=
  ∀ room', room = room' + 1 → (ofRoom room').Limited room'

variable {room : Nat} {ts : List Token} {o : Obstacle}

/-- What is met one level deeper: the end of the levels, or what the next level meets. -/
theorem error_of_deeper {α : Type} {parser : ExprLevel → Parser α}
    (h : deeper (below room) parser ts = .error o) :
    (room = 0 ∧ o = ⟨.tooComplex, current ts⟩) ∨
      ∃ room', room = room' + 1 ∧ parser (ofRoom room') ts = .error o := by
  cases room with
  | zero =>
    cases h
    exact .inl ⟨rfl, rfl⟩
  | succ room => exact .inr ⟨room, rfl, h⟩

/-- The level below is sound. -/
theorem below_sound {room : Nat} : Below (below room) := by
  cases room with
  | zero => exact nofun
  | succ room =>
    intro level hlevel
    obtain rfl := Option.some.inj hlevel
    exact sound_ofRoom room

/-! ## Operands and arguments -/

section Expression

variable {expression : Parser Expr}
variable (he : ∀ {ts o}, expression ts = .error o → o.Due room 1 ts)
variable (hs : Finds expression fun e us rest ↦ e.Derives us ∧ Stops 0 rest)
include he hs

omit hs in
theorem due_group (h : group expression ts = .error o) : o.Due room 1 ts := by
  rcases bind_eq_error_iff.1 h with h | ⟨⟨inner, us⟩, hinner, hclose⟩
  · exact he h
  · rcases bind_eq_error_iff.1 hclose with hclose | ⟨_, _, hclose⟩
    · exact due_takeSymbol hclose
    · cases hclose

omit hs in
theorem due_operand (h : operand expression ts = .error o) : o.Due (room + 1) 0 ts := by
  unfold operand at h
  split at h
  · rename_i digits span rest
    rw [intLiteral] at h
    split at h
    · cases h
    · rename_i hlarge
      cases h
      exact ⟨by simp, fun _ ↦ ⟨_, List.mem_cons_self .., digits, rfl, Nat.le_of_not_lt hlarge⟩⟩
  iterate 7 cases h
  · rename_i opening rest
    split at h
    · cases h
    · rename_i o' hgroup
      split at h
      · cases h
        exact (due_group he hgroup).behind (List.suffix_cons _ _) (by simp; omega)
      · cases h
        exact .of_soft rfl
  · cases h
    exact .of_soft rfl

theorem due_moreArguments {fuel : Nat} (h : moreArguments expression fuel ts = .error o) :
    o.Due room 1 ts := by
  induction fuel generalizing ts with
  | zero => cases h
  | succ fuel ih =>
    rw [moreArguments] at h
    have hdrop : ts.drop 1 <:+ ts := List.drop_suffix 1 ts
    have hlength := hdrop.length_le
    split at h
    · split at h
      · rename_i arg rest harg
        obtain ⟨us, hus, -⟩ := hs _ _ _ harg
        have hrest : rest <:+ ts := (hus ▸ List.suffix_append us rest : rest <:+ ts.drop 1).trans hdrop
        have hle := hrest.length_le
        rcases bind_eq_error_iff.1 h with h | ⟨more, hmore, h⟩
        · exact (ih h).behind hrest (by omega)
        · cases h
      · rename_i o' herror
        split at h
        · cases h
          exact (he herror).behind hdrop (by omega)
        · cases h
    · cases h

theorem due_arguments (h : arguments expression ts = .error o) : o.Due room 1 ts := by
  rw [arguments] at h
  split at h
  · rename_i arg rest harg
    obtain ⟨us, rfl, -⟩ := hs _ _ _ harg
    rcases bind_eq_error_iff.1 h with h | ⟨more, hmore, h⟩
    · exact (due_moreArguments he hs h).behind (List.suffix_append us rest)
        (by rw [List.length_append]; omega)
    · cases h
  · rename_i o' herror
    split at h
    · cases h
      exact he herror
    · cases h

end Expression

/-! ## The parsers of a level -/

/-- An expression takes a level before its first token. -/
theorem due_expression (hbelow : LimitedBelow room)
    (h : deeper (below room) (fun level ↦ level.binary 0) ts = .error o) : o.Due room 1 ts := by
  rcases error_of_deeper h with ⟨rfl, rfl⟩ | ⟨room', rfl, h⟩
  · exact .tooComplex _ (Nat.succ_pos _)
  · exact ((hbelow room' rfl).binary h).behind (List.suffix_refl ts) (by omega)

theorem due_suffixesWith (hbelow : LimitedBelow room) {base : Expr}
    (h : suffixesWith (below room) base ts = .error o) : o.Due room 0 ts := by
  have hdrop : ts.drop 1 <:+ ts := List.drop_suffix 1 ts
  rw [suffixesWith] at h
  split at h
  · rename_i hopen
    have hlength := length_drop_one (ne_nil_of_atSymbol hopen)
    rcases error_of_deeper h with ⟨rfl, rfl⟩ | ⟨room, rfl, h⟩
    · exact .tooComplex _ (by omega)
    have hlevel := hbelow room rfl
    have hsound := sound_ofRoom room
    rcases bind_eq_error_iff.1 h with h | ⟨⟨args, us⟩, hargs, h⟩
    · exact (due_arguments hlevel.expression hsound.expression h).behind hdrop (by omega)
    obtain ⟨vs, hus, -⟩ := finds_arguments hsound.expression _ _ _ hargs
    rcases bind_eq_error_iff.1 h with h | ⟨⟨close, ws⟩, hclose, h⟩
    · exact due_takeSymbol h
    have hws : ws <:+ us := ⟨[_], (eq_cons_of_takeSymbol hclose).symm⟩
    have hws : ws <:+ ts.drop 1 := hws.trans ⟨vs, hus.symm⟩
    have hle := hws.length_le
    exact (hlevel.suffixes h).behind (hws.trans hdrop) (by omega)
  · split at h
    · rename_i hdot
      have hlength := length_drop_one (ne_nil_of_atSymbol hdot)
      rcases error_of_deeper h with ⟨rfl, rfl⟩ | ⟨room, rfl, h⟩
      · exact .tooComplex _ (by omega)
      rcases bind_eq_error_iff.1 h with h | ⟨⟨m, us⟩, hm, h⟩
      · exact due_takeName h
      have hus : us <:+ ts.drop 1 := ⟨[_], (eq_cons_of_takeName hm).symm⟩
      have hle := hus.length_le
      exact ((hbelow room rfl).suffixes h).behind (hus.trans hdrop) (by omega)
    · cases h

theorem due_unaryWith (hbelow : LimitedBelow room) (h : unaryWith (below room) ts = .error o) :
    o.Due room 0 ts := by
  have hdrop : ts.drop 1 <:+ ts := List.drop_suffix 1 ts
  rw [unaryWith] at h
  split at h
  · rename_i op hop
    have hsign := eq_cons_of_current (kind_of_unaryOp? hop) (by simp)
    have hne : ts ≠ [] := by rw [hsign]; simp
    have hlength := length_drop_one hne
    rcases bind_eq_error_iff.1 h with h | ⟨_, _, h⟩
    · rcases error_of_deeper h with ⟨rfl, rfl⟩ | ⟨room, rfl, h⟩
      · exact .tooComplex _ (by omega)
      · exact ((hbelow room rfl).unary h).behind hdrop (by omega)
    · cases h
  · rcases bind_eq_error_iff.1 h with h | ⟨⟨base, us⟩, hbase, hsuffixes⟩
    · exact (due_operand (due_expression hbelow) h).behind (List.suffix_refl ts) (by omega)
    · obtain ⟨vs, rfl, -⟩ := finds_operand (finds_expression below_sound) _ _ _ hbase
      have hus := List.suffix_append vs us
      have hle := hus.length_le
      exact (due_suffixesWith hbelow hsuffixes).behind hus (by omega)

theorem due_operatorsWith (hbelow : LimitedBelow room) {least : Nat} {left : Expr}
    (h : operatorsWith (below room) least left ts = .error o) : o.Due room 0 ts := by
  have hdrop : ts.drop 1 <:+ ts := List.drop_suffix 1 ts
  rw [operatorsWith] at h
  split at h
  · cases h
  · rename_i op hop
    split at h
    · cases h
    have hplace := eq_cons_of_current (kind_of_binaryOp? hop) (by simp)
    have hne : ts ≠ [] := by rw [hplace]; simp
    have hlength := length_drop_one hne
    rcases error_of_deeper h with ⟨rfl, rfl⟩ | ⟨room, rfl, h⟩
    · exact .tooComplex _ (by omega)
    have hlevel := hbelow room rfl
    have hle := Nat.succ_le_succ op.level_le
    rcases bind_eq_error_iff.1 h with h | ⟨⟨right, us⟩, hright, h⟩
    · exact (hlevel.binary h).behind hdrop (by omega)
    · obtain ⟨vs, hus, -⟩ := (sound_ofRoom room).binary _ hle _ _ _ hright
      have hus : us <:+ ts.drop 1 := ⟨vs, hus.symm⟩
      have hle := hus.length_le
      exact (hlevel.operators h).behind (hus.trans hdrop) (by omega)

/-- **The limits of a level are due if those of the next one are.** -/
theorem limited_of_below (hbelow : LimitedBelow room) : (ofRoom room).Limited room := by
  rw [ofRoom_eq_above]
  refine ⟨due_expression hbelow, fun {least ts o} h ↦ ?_, due_operatorsWith hbelow,
    due_unaryWith hbelow, due_suffixesWith hbelow⟩
  rcases bind_eq_error_iff.1 h with h | ⟨⟨left, us⟩, hleft, hoperators⟩
  · exact due_unaryWith hbelow h
  · obtain ⟨vs, rfl, -⟩ := finds_unaryWith below_sound _ _ _ hleft
    have hus := List.suffix_append vs us
    have hle := hus.length_le
    exact (due_operatorsWith hbelow hoperators).behind hus (by omega)

/-- **Only what goes beyond a limit meets it.** -/
theorem limited_ofRoom (room : Nat) : (ofRoom room).Limited room := by
  induction room with
  | zero => exact limited_of_below nofun
  | succ room ih =>
    refine limited_of_below fun room' h ↦ ?_
    obtain rfl := Nat.succ.inj h
    exact ih

end ExprLevel

end Dossier.Script
