import Dossier.Script.Binding
import Mathlib.Data.List.Nodup

/-!
# Slots of locals

Which slot a declaration takes, and which locals are in scope after it.

* `Declared.Tidy` is what holds of the declarations before any statement: the locals in scope have
  different slots, and all of these are taken.  Every binding step keeps it (`Tidy.bindStmt`).
* `BoundStmt.known` says in terms of bound code which locals are in scope after a statement;
  `known_bindStmt` ties it to the scopes of the binder.
* `takes_bindStmts`: the declarations of a body, in the order of the text, take the slots one after
  the other.  So no slot is used for two declarations, and the slot of a declaration says which one
  it is.
-/

set_option autoImplicit false

namespace Dossier.Script

/-! ## Locals in scope -/

/-- The locals of some scopes, the latest first. -/
def Scopes.locals (scopes : Scopes) : List Local := scopes.flatten.map Prod.snd

/-- The locals in scope. -/
def Declared.locals (d : Declared) : List Local := d.scopes.locals

theorem Scopes.mem_locals_of_find? {scopes : Scopes} {name : String} {l : Local}
    (h : scopes.find? name = some l) : l ∈ scopes.locals := by
  rw [find?, List.findSome?_eq_some_iff] at h
  obtain ⟨before, scope, after, rfl, h, -⟩ := h
  rw [List.lookup_eq_some_iff] at h
  obtain ⟨l₁, l₂, rfl, -⟩ := h
  simp [locals]

theorem Scopes.locals_declare {scopes : Scopes} (h : scopes ≠ []) (name : String) (l : Local) :
    (scopes.declare name l).locals = l :: scopes.locals := by
  cases scopes with
  | nil => exact absurd rfl h
  | cons scope outer => rfl

theorem Scopes.declare_ne_nil {scopes : Scopes} (h : scopes ≠ []) (name : String) (l : Local) :
    scopes.declare name l ≠ [] := by
  cases scopes with
  | nil => exact absurd rfl h
  | cons scope outer => simp [declare]

theorem Scopes.tail_declare (scopes : Scopes) (name : String) (l : Local) :
    (scopes.declare name l).tail = scopes.tail := by
  cases scopes <;> rfl

/-- Locals in scope have different slots, and all of these are taken. -/
structure Declared.Tidy (d : Declared) : Prop where
  /-- There is a scope to declare in. -/
  nonempty : d.scopes ≠ []
  /-- Different locals have different slots. -/
  apart : d.locals.Pairwise fun l l' ↦ l.slot ≠ l'.slot
  /-- The slots are taken. -/
  taken : ∀ l ∈ d.locals, l.slot < d.frameSize

namespace Declared.Tidy

variable {d : Declared}

theorem enter (h : d.Tidy) : d.enter.Tidy := ⟨by simp [Declared.enter], h.apart, h.taken⟩

theorem leaveTo (h : d.Tidy) {inner : Declared} (hle : d.frameSize ≤ inner.frameSize) :
    (inner.leaveTo d).Tidy :=
  ⟨h.nonempty, h.apart, fun l hl ↦ Nat.lt_of_lt_of_le (h.taken l hl) hle⟩

theorem below (h : d.Tidy) {size : Nat} (hle : d.frameSize ≤ size) :
    ∀ l ∈ d.scopes.locals, l.slot < size :=
  fun l hl ↦ Nat.lt_of_lt_of_le (h.taken l hl) hle

theorem declare (h : d.Tidy) (name : String) (type : Option ValueType) :
    (d.declare name type).Tidy := by
  have hl : (d.declare name type).locals = ⟨d.frameSize, type⟩ :: d.locals :=
    Scopes.locals_declare h.nonempty name _
  refine ⟨Scopes.declare_ne_nil h.nonempty name _, ?_, ?_⟩
  · rw [hl, List.pairwise_cons]
    exact ⟨fun l hl ↦ (Nat.ne_of_lt (h.taken l hl)).symm, h.apart⟩
  · intro l hmem
    rw [hl, List.mem_cons] at hmem
    rcases hmem with rfl | hmem
    · exact Nat.lt_succ_self d.frameSize
    · exact Nat.lt_succ_of_lt (h.taken l hmem)

end Declared.Tidy

/-! ## Locals of bound code -/

/-- The locals in scope after a statement, if those in `known` were before it. -/
def BoundStmt.known (known : List Local) : BoundStmt → List Local
  | .declare i type _ => ⟨i, type⟩ :: known
  | _ => known

mutual

/-- The locals that a statement declares, itself or within, in the order of the text. -/
def BoundStmt.declarations : BoundStmt → List Local
  | .declare i type _ => [⟨i, type⟩]
  | .branch _ body otherwise => declarationsIn body ++ declarationsIn otherwise
  | .loop _ body => declarationsIn body
  | .block body => declarationsIn body
  | _ => []

/-- The locals that are declared within statements. -/
def declarationsIn : List BoundStmt → List Local
  | [] => []
  | s :: rest => s.declarations ++ declarationsIn rest

end

/-- The locals of parameters, the first of them in the slot `first`. -/
def paramLocals : (first : Nat) → List BoundParam → List Local
  | _, [] => []
  | first, p :: ps => ⟨first, some p.type⟩ :: paramLocals (first + 1) ps

/-- The locals take the slots from `first` up to `next`, one after the other. -/
def Takes (first next : Nat) (locals : List Local) : Prop :=
  next = first + locals.length ∧ locals.map Local.slot = List.range' first locals.length

namespace Takes

theorem nil (n : Nat) : Takes n n [] := ⟨rfl, rfl⟩

theorem single (n : Nat) (type : Option ValueType) : Takes n (n + 1) [⟨n, type⟩] := ⟨rfl, rfl⟩

theorem append {n m k : Nat} {ls ls' : List Local} (h : Takes n m ls) (h' : Takes m k ls') :
    Takes n k (ls ++ ls') := by
  obtain ⟨rfl, hs⟩ := h
  obtain ⟨rfl, hs'⟩ := h'
  refine ⟨by rw [List.length_append, Nat.add_assoc], ?_⟩
  rw [List.map_append, hs, hs', List.length_append, ← List.range'_append_1]

theorem le {n m : Nat} {ls : List Local} (h : Takes n m ls) : n ≤ m := by
  rw [h.1]
  exact Nat.le_add_right n _

theorem nodup {n m : Nat} {ls : List Local} (h : Takes n m ls) : (ls.map Local.slot).Nodup :=
  h.2 ▸ List.nodup_range'

/-- A slot tells which of the locals has it. -/
theorem eq_of_slot {n m : Nat} {ls : List Local} (h : Takes n m ls) {l l' : Local} (hl : l ∈ ls)
    (hl' : l' ∈ ls) (hs : l.slot = l'.slot) : l = l' :=
  List.inj_on_of_nodup_map h.nodup hl hl' hs

end Takes

@[simp] theorem length_paramLocals (first : Nat) (ps : List BoundParam) :
    (paramLocals first ps).length = ps.length := by
  induction ps generalizing first with
  | nil => rfl
  | cons p ps ih => simp [paramLocals, ih]

theorem takes_paramLocals (first : Nat) (ps : List BoundParam) :
    Takes first (first + ps.length) (paramLocals first ps) := by
  induction ps generalizing first with
  | nil => exact .nil first
  | cons p ps ih =>
    have h := (Takes.single first (some p.type)).append (ih (first + 1))
    rwa [Nat.add_right_comm, Nat.add_assoc] at h

/-! ## What binding a statement does to the locals -/

namespace Surroundings

variable (s : Surroundings)

/-- The bound form of a statement that declares nothing itself. -/
theorem bindAssign_eq (scopes : Scopes) (op : AssignOp) (target value : Expr) :
    (∃ (l : Local) (e : BoundExpr),
      (s.bindAssign scopes op target value).value = .assign l.slot l.type op.binary? e) ∨
      ∃ e, (s.bindAssign scopes op target value).value = .expr e := by
  cases target with
  | name n =>
    simp only [bindAssign, Noted.value_bind]
    cases scopes.find? n.text with
    | some l => exact Or.inl ⟨l, _, rfl⟩
    | none => exact Or.inr ⟨_, rfl⟩
  | _ => exact Or.inr ⟨_, rfl⟩

theorem bindGiveBack_eq (scopes : Scopes) (value : Option Expr) (span : Text.Span) :
    ∃ e, (s.bindGiveBack scopes value span).value = .giveBack e := by
  cases value <;> cases h : s.method.returns == .void <;>
    simp only [bindGiveBack, h] <;> exact ⟨_, rfl⟩

mutual

/-- The declarations of a statement take the next slots. -/
theorem takes_bindStmt (d : Declared) : (stmt : Stmt) →
    Takes d.frameSize (s.bindStmt d stmt).value.2.frameSize
      (s.bindStmt d stmt).value.1.declarations
  | .declare name type init _ => .single d.frameSize _
  | .assign op target value _ => by
    show Takes d.frameSize d.frameSize (s.bindAssign d.scopes op target value).value.declarations
    rcases s.bindAssign_eq d.scopes op target value with ⟨l, e, h⟩ | ⟨e, h⟩ <;>
      · rw [h]
        exact .nil _
  | .giveBack value span => by
    show Takes d.frameSize d.frameSize (s.bindGiveBack d.scopes value span).value.declarations
    obtain ⟨e, h⟩ := s.bindGiveBack_eq d.scopes value span
    rw [h]
    exact .nil _
  | .branch condition body _ otherwise _ =>
    (takes_bindStmts d.enter body).append
      (takes_bindOtherwise ((s.bindStmts d.enter body).value.2.leaveTo d) otherwise)
  | .loop condition body _ _ => takes_bindStmts d.enter body
  | .throw value _ => .nil _
  | .block body _ => takes_bindStmts d.enter body
  | .expr e span => .nil _

theorem takes_bindOtherwise (d : Declared) : (o : Otherwise) →
    Takes d.frameSize (s.bindOtherwise d o).value.2.frameSize
      (declarationsIn (s.bindOtherwise d o).value.1)
  | .nothing => .nil _
  | .block body _ => takes_bindStmts d.enter body
  | .branch condition body _ otherwise _ => by
    have h := (takes_bindStmts d.enter body).append
      (takes_bindOtherwise ((s.bindStmts d.enter body).value.2.leaveTo d) otherwise)
    exact h.append (.nil _)

/-- **The declarations of statements take the next slots**, one after the other. -/
theorem takes_bindStmts (d : Declared) : (stmts : List Stmt) →
    Takes d.frameSize (s.bindStmts d stmts).value.2.frameSize
      (declarationsIn (s.bindStmts d stmts).value.1)
  | [] => .nil _
  | first :: rest =>
    (takes_bindStmt d first).append (takes_bindStmts (s.bindStmt d first).value.2 rest)

end

theorem bindOtherwise_scopes (d : Declared) :
    (o : Otherwise) → (s.bindOtherwise d o).value.2.scopes = d.scopes
  | .nothing => rfl
  | .block _ _ => rfl
  | .branch _ body _ otherwise _ =>
    bindOtherwise_scopes ((s.bindStmts d.enter body).value.2.leaveTo d) otherwise

/-- The scopes after a statement: only a declaration changes them. -/
theorem bindStmt_scopes (d : Declared) (stmt : Stmt) :
    (s.bindStmt d stmt).value.2.scopes = d.scopes ∨
      ∃ name type, (s.bindStmt d stmt).value.2 = d.declare name type := by
  cases stmt with
  | declare name type init => exact Or.inr ⟨_, _, rfl⟩
  | branch condition body _ otherwise =>
    exact Or.inl (s.bindOtherwise_scopes ((s.bindStmts d.enter body).value.2.leaveTo d) otherwise)
  | _ => exact Or.inl rfl

theorem known_bindStmt {d : Declared} (hd : d.scopes ≠ []) (stmt : Stmt) :
    (s.bindStmt d stmt).value.1.known d.locals = (s.bindStmt d stmt).value.2.locals := by
  cases stmt with
  | declare name type init => exact (Scopes.locals_declare hd _ _).symm
  | assign op target value =>
    show (s.bindAssign d.scopes op target value).value.known d.locals = d.locals
    rcases s.bindAssign_eq d.scopes op target value with ⟨l, e, h⟩ | ⟨e, h⟩ <;>
      · rw [h]
        rfl
  | giveBack value span =>
    show (s.bindGiveBack d.scopes value span).value.known d.locals = d.locals
    obtain ⟨e, h⟩ := s.bindGiveBack_eq d.scopes value span
    rw [h]
    rfl
  | branch condition body _ otherwise =>
    exact (congrArg Scopes.locals
      (s.bindOtherwise_scopes ((s.bindStmts d.enter body).value.2.leaveTo d) otherwise)).symm
  | _ => rfl

theorem bindStmts_tail (d : Declared) (stmts : List Stmt) :
    (s.bindStmts d stmts).value.2.scopes.tail = d.scopes.tail := by
  induction stmts generalizing d with
  | nil => rfl
  | cons first rest ih =>
    show (s.bindStmts (s.bindStmt d first).value.2 rest).value.2.scopes.tail = _
    rw [ih]
    rcases s.bindStmt_scopes d first with h | ⟨name, type, h⟩
    · rw [h]
    · rw [h]
      exact Scopes.tail_declare d.scopes name _

end Surroundings

namespace Declared.Tidy

variable {d : Declared} (s : Surroundings)

/-- **Tidiness is kept by every statement.** -/
theorem bindStmt (h : d.Tidy) (stmt : Stmt) : (s.bindStmt d stmt).value.2.Tidy := by
  have hle := (s.takes_bindStmt d stmt).le
  rcases s.bindStmt_scopes d stmt with hs | ⟨name, type, hd⟩
  · refine ⟨hs ▸ h.nonempty, ?_, ?_⟩
    · rw [locals, hs]
      exact h.apart
    · rw [locals, hs]
      exact fun l hl ↦ Nat.lt_of_lt_of_le (h.taken l hl) hle
  · rw [hd]
    exact h.declare name type

end Declared.Tidy

/-! ## Parameters -/

namespace Declared

theorem foldl_declare (ps : List BoundParam) {d : Declared} (h : d.Tidy) :
    let d' := ps.foldl (fun d p ↦ d.declare p.name (some p.type)) d
    d'.Tidy ∧ d'.frameSize = d.frameSize + ps.length ∧
      d'.locals = (paramLocals d.frameSize ps).reverse ++ d.locals := by
  induction ps generalizing d with
  | nil => exact ⟨h, rfl, rfl⟩
  | cons p ps ih =>
    obtain ⟨ht, hn, hl⟩ := ih (h.declare p.name (some p.type))
    refine ⟨ht, ?_, ?_⟩
    · rw [List.foldl_cons, hn, List.length_cons]
      simp only [declare]
      omega
    · rw [List.foldl_cons, hl, paramLocals, List.reverse_cons, List.append_assoc]
      exact congrArg _ (Scopes.locals_declare h.nonempty _ _)

theorem tidy_start : (⟨[[]], 0⟩ : Declared).Tidy := ⟨by simp, .nil, by simp [locals, Scopes.locals]⟩

theorem tidy_ofParams (ps : List BoundParam) : (ofParams ps).Tidy := (foldl_declare ps tidy_start).1

@[simp] theorem frameSize_ofParams (ps : List BoundParam) :
    (ofParams ps).frameSize = ps.length := by
  simpa [ofParams] using (foldl_declare ps tidy_start).2.1

theorem locals_ofParams (ps : List BoundParam) :
    (ofParams ps).locals = (paramLocals 0 ps).reverse := by
  simpa [ofParams, locals, Scopes.locals] using (foldl_declare ps tidy_start).2.2

end Declared

end Dossier.Script
