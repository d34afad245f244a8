import Dossier.Script.Tree

/-!
# How deep trees nest

A path leads from a statement down to a leaf of its tree.  It crosses the nodes that nest: blocks,
the branches of an `else if`, operators, members and calls.

* `Stmt.Crosses b n` says that there is a path that crosses `n` of them.  The flag tells whether it
  enters a *first operand*: the left one of a binary operator, or what a call or a member follows.
* `Stmt.reach` computes the greatest of these numbers, over all paths or over those that enter no
  first operand.  No path crosses more (`Stmt.le_reach`), and one crosses as many
  (`Stmt.crosses_reach`).
-/

set_option autoImplicit false

namespace Dossier.Script

/-! ## Paths -/

/-- A path from the expression to a leaf crosses so many nodes that nest; the flag tells whether it
enters a first operand. -/
inductive Expr.Crosses : Expr → Bool → Nat → Prop
  | literal (l : Literal) (span : Text.Span) : Crosses (.literal l span) false 0
  | name (n : Name) : Crosses (.name n) false 0
  | self (span : Text.Span) : Crosses (.self span) false 0
  | operand {op : UnaryOp} {e : Expr} {span : Text.Span} {b : Bool} {n : Nat} :
    Crosses e b n → Crosses (.unary op e span) b (n + 1)
  | left {op : BinaryOp} {l r : Expr} {span : Text.Span} {b : Bool} {n : Nat} :
    Crosses l b n → Crosses (.binary op l r span) true (n + 1)
  | right {op : BinaryOp} {l r : Expr} {span : Text.Span} {b : Bool} {n : Nat} :
    Crosses r b n → Crosses (.binary op l r span) b (n + 1)
  | base {e : Expr} {m : Name} {span : Text.Span} {b : Bool} {n : Nat} :
    Crosses e b n → Crosses (.member e m span) true (n + 1)
  | callee {e : Expr} {args : List Expr} {span : Text.Span} {b : Bool} {n : Nat} :
    Crosses e b n → Crosses (.call e args span) true (n + 1)
  | arg {e arg : Expr} {args : List Expr} {span : Text.Span} {b : Bool} {n : Nat} :
    arg ∈ args → Crosses arg b n → Crosses (.call e args span) b (n + 1)

mutual

/-- The same of a path from a statement. -/
inductive Stmt.Crosses : Stmt → Bool → Nat → Prop
  | bare (name : Name) (type : Option TypeName) (span : Text.Span) :
    Stmt.Crosses (.declare name type none span) false 0
  | init {name : Name} {type : Option TypeName} {e : Expr} {span : Text.Span} {b : Bool} {n : Nat} :
    e.Crosses b n → Stmt.Crosses (.declare name type (some e) span) b n
  | target {op : AssignOp} {e value : Expr} {span : Text.Span} {b : Bool} {n : Nat} :
    e.Crosses b n → Stmt.Crosses (.assign op e value span) b n
  | value {op : AssignOp} {e value : Expr} {span : Text.Span} {b : Bool} {n : Nat} :
    value.Crosses b n → Stmt.Crosses (.assign op e value span) b n
  | done (span : Text.Span) : Stmt.Crosses (.giveBack none span) false 0
  | result {e : Expr} {span : Text.Span} {b : Bool} {n : Nat} :
    e.Crosses b n → Stmt.Crosses (.giveBack (some e) span) b n
  | branchCondition {c : Expr} {body : List Stmt} {bodySpan : Text.Span} {o : Otherwise}
      {span : Text.Span} {b : Bool} {n : Nat} :
    c.Crosses b n → Stmt.Crosses (.branch c body bodySpan o span) b n
  | branchBody {c : Expr} {body : List Stmt} {bodySpan : Text.Span} {o : Otherwise}
      {span : Text.Span} {b : Bool} {n : Nat} :
    CrossesBlock body b n → Stmt.Crosses (.branch c body bodySpan o span) b n
  | branchOtherwise {c : Expr} {body : List Stmt} {bodySpan : Text.Span} {o : Otherwise}
      {span : Text.Span} {b : Bool} {n : Nat} :
    o.Crosses b n → Stmt.Crosses (.branch c body bodySpan o span) b n
  | loopCondition {c : Expr} {body : List Stmt} {bodySpan span : Text.Span} {b : Bool} {n : Nat} :
    c.Crosses b n → Stmt.Crosses (.loop c body bodySpan span) b n
  | loopBody {c : Expr} {body : List Stmt} {bodySpan span : Text.Span} {b : Bool} {n : Nat} :
    CrossesBlock body b n → Stmt.Crosses (.loop c body bodySpan span) b n
  | thrown {e : Expr} {span : Text.Span} {b : Bool} {n : Nat} :
    e.Crosses b n → Stmt.Crosses (.throw e span) b n
  | block {body : List Stmt} {span : Text.Span} {b : Bool} {n : Nat} :
    CrossesBlock body b n → Stmt.Crosses (.block body span) b n
  | expr {e : Expr} {span : Text.Span} {b : Bool} {n : Nat} :
    e.Crosses b n → Stmt.Crosses (.expr e span) b n

/-- The same of a path from what follows the block of a branch. -/
inductive Otherwise.Crosses : Otherwise → Bool → Nat → Prop
  | block {body : List Stmt} {span : Text.Span} {b : Bool} {n : Nat} :
    CrossesBlock body b n → Otherwise.Crosses (.block body span) b n
  | condition {c : Expr} {body : List Stmt} {bodySpan : Text.Span} {o : Otherwise}
      {span : Text.Span} {b : Bool} {n : Nat} :
    c.Crosses b n → Otherwise.Crosses (.branch c body bodySpan o span) b (n + 1)
  | body {c : Expr} {body : List Stmt} {bodySpan : Text.Span} {o : Otherwise}
      {span : Text.Span} {b : Bool} {n : Nat} :
    CrossesBlock body b n → Otherwise.Crosses (.branch c body bodySpan o span) b (n + 1)
  | otherwise {c : Expr} {body : List Stmt} {bodySpan : Text.Span} {o : Otherwise}
      {span : Text.Span} {b : Bool} {n : Nat} :
    o.Crosses b n → Otherwise.Crosses (.branch c body bodySpan o span) b (n + 1)

/-- The same of a path from a block, which it crosses first. -/
inductive CrossesBlock : List Stmt → Bool → Nat → Prop
  | empty : CrossesBlock [] false 1
  | stmt {s : Stmt} {body : List Stmt} {b : Bool} {n : Nat} :
    s ∈ body → s.Crosses b n → CrossesBlock body b (n + 1)

end

/-! ## The greatest number -/

mutual

/-- How many nodes that nest a path from the expression crosses at most; `firsts` tells whether
paths into first operands count. -/
def Expr.reach (firsts : Bool) : Expr → Nat
  | .literal _ _ => 0
  | .name _ => 0
  | .self _ => 0
  | .unary _ e _ => e.reach firsts + 1
  | .binary _ l r _ => max (if firsts then l.reach firsts else 0) (r.reach firsts) + 1
  | .member e _ _ => (if firsts then e.reach firsts else 0) + 1
  | .call e args _ => max (if firsts then e.reach firsts else 0) (reachArgs firsts args) + 1

/-- The same of paths from arguments. -/
def reachArgs (firsts : Bool) : List Expr → Nat
  | [] => 0
  | arg :: args => max (arg.reach firsts) (reachArgs firsts args)

end

/-- The same of paths from an expression that need not be there. -/
def reachOption (firsts : Bool) : Option Expr → Nat
  | none => 0
  | some e => e.reach firsts

mutual

/-- The same of paths from a statement. -/
def Stmt.reach (firsts : Bool) : Stmt → Nat
  | .declare _ _ init _ => reachOption firsts init
  | .assign _ target value _ => max (target.reach firsts) (value.reach firsts)
  | .giveBack value _ => reachOption firsts value
  | .branch c body _ o _ =>
    max (c.reach firsts) (max (reachBody firsts body + 1) (o.reach firsts))
  | .loop c body _ _ => max (c.reach firsts) (reachBody firsts body + 1)
  | .throw e _ => e.reach firsts
  | .block body _ => reachBody firsts body + 1
  | .expr e _ => e.reach firsts

/-- The same of paths from what follows the block of a branch. -/
def Otherwise.reach (firsts : Bool) : Otherwise → Nat
  | .nothing => 0
  | .block body _ => reachBody firsts body + 1
  | .branch c body _ o _ =>
    max (c.reach firsts) (max (reachBody firsts body + 1) (o.reach firsts)) + 1

/-- The same of paths from the statements in a block, without the block. -/
def reachBody (firsts : Bool) : List Stmt → Nat
  | [] => 0
  | s :: rest => max (s.reach firsts) (reachBody firsts rest)

end

/-! ## No path crosses more -/

theorem reach_le_reachArgs (firsts : Bool) {arg : Expr} {args : List Expr} (h : arg ∈ args) :
    arg.reach firsts ≤ reachArgs firsts args := by
  induction args with
  | nil => exact absurd h (by simp)
  | cons first rest ih =>
    rw [reachArgs]
    rcases List.mem_cons.1 h with rfl | h
    · exact Nat.le_max_left _ _
    · exact Nat.le_trans (ih h) (Nat.le_max_right _ _)

/-- The paths that count for a flag: all of them, or those that enter no first operand. -/
def Counts (firsts b : Bool) : Prop := b = true → firsts = true

theorem Expr.Crosses.le_reach {e : Expr} {b : Bool} {n : Nat} (h : e.Crosses b n) {firsts : Bool}
    (hb : Counts firsts b) : n ≤ e.reach firsts := by
  induction h with
  | literal | name | self => exact Nat.le_refl 0
  | operand _ ih =>
    rw [reach]
    exact Nat.succ_le_succ (ih hb)
  | left _ ih =>
    obtain rfl : firsts = true := hb rfl
    have := ih fun _ ↦ rfl
    simp only [reach, if_true]
    omega
  | right _ ih =>
    have := ih hb
    rw [reach]
    omega
  | base _ ih =>
    obtain rfl : firsts = true := hb rfl
    have := ih fun _ ↦ rfl
    simp only [reach, if_true]
    omega
  | callee _ ih =>
    obtain rfl : firsts = true := hb rfl
    have := ih fun _ ↦ rfl
    simp only [reach, if_true]
    omega
  | arg hmem _ ih =>
    have := ih hb
    have := reach_le_reachArgs firsts hmem
    rw [reach]
    omega

variable {firsts b : Bool}

mutual

/-- **No path from a statement crosses more.** -/
theorem Stmt.le_reach (hb : Counts firsts b) : (s : Stmt) → {n : Nat} → s.Crosses b n →
    n ≤ s.reach firsts
  | .declare _ _ _ _, _, h => by
    cases h with
    | bare => exact Nat.zero_le _
    | init h => exact h.le_reach hb
  | .assign _ _ _ _, _, h => by
    rw [Stmt.reach]
    cases h with
    | target h => exact Nat.le_trans (h.le_reach hb) (Nat.le_max_left _ _)
    | value h => exact Nat.le_trans (h.le_reach hb) (Nat.le_max_right _ _)
  | .giveBack _ _, _, h => by
    cases h with
    | done => exact Nat.zero_le _
    | result h => exact h.le_reach hb
  | .branch _ body _ o _, _, h => by
    rw [Stmt.reach]
    cases h with
    | branchCondition h =>
      have := h.le_reach hb
      omega
    | branchBody h =>
      have := le_reachBody hb body h
      omega
    | branchOtherwise h =>
      have := Otherwise.le_reach hb o h
      omega
  | .loop _ body _ _, _, h => by
    rw [Stmt.reach]
    cases h with
    | loopCondition h => exact Nat.le_trans (h.le_reach hb) (Nat.le_max_left _ _)
    | loopBody h => exact Nat.le_trans (le_reachBody hb body h) (Nat.le_max_right _ _)
  | .throw _ _, _, h => by
    cases h with
    | thrown h => exact h.le_reach hb
  | .block body _, _, h => by
    cases h with
    | block h => exact le_reachBody hb body h
  | .expr _ _, _, h => by
    cases h with
    | expr h => exact h.le_reach hb

theorem Otherwise.le_reach (hb : Counts firsts b) : (o : Otherwise) → {n : Nat} → o.Crosses b n →
    n ≤ o.reach firsts
  | .nothing, _, h => nomatch h
  | .block body _, _, h => by
    cases h with
    | block h => exact le_reachBody hb body h
  | .branch _ body _ o _, _, h => by
    rw [Otherwise.reach]
    cases h with
    | condition h =>
      have := h.le_reach hb
      omega
    | body h =>
      have := le_reachBody hb body h
      omega
    | otherwise h =>
      have := Otherwise.le_reach hb o h
      omega

theorem le_reachBody (hb : Counts firsts b) : (body : List Stmt) → {n : Nat} →
    CrossesBlock body b n → n ≤ reachBody firsts body + 1
  | [], _, h => by
    cases h with
    | empty => exact Nat.le_refl 1
    | stmt hmem _ => exact absurd hmem (by simp)
  | s :: rest, _, h => by
    rw [reachBody]
    cases h with
    | stmt hmem h =>
      rcases List.mem_cons.1 hmem with heq | hmem
      · have := Stmt.le_reach hb s (heq ▸ h)
        omega
      · have := le_reachBody hb rest (.stmt hmem h)
        omega

end

/-! ## One path crosses as many -/

/-- The greater of two numbers is reached if both are; the second need not be if it is zero. -/
theorem exists_max {P : Bool → Nat → Prop} {m n : Nat} (hm : ∃ b, P b m)
    (hn : n = 0 ∨ ∃ b, P b n) : ∃ b, P b (max m n) := by
  rcases hn with rfl | hn
  · rwa [Nat.max_zero]
  · rcases Nat.le_total m n with hle | hle
    · rwa [Nat.max_eq_right hle]
    · rwa [Nat.max_eq_left hle]

mutual

theorem Expr.crosses_reach : (e : Expr) → ∃ b, e.Crosses b (e.reach true)
  | .literal l span => ⟨false, .literal l span⟩
  | .name n => ⟨false, .name n⟩
  | .self span => ⟨false, .self span⟩
  | .unary _ e _ => by
    obtain ⟨b, h⟩ := Expr.crosses_reach e
    exact ⟨b, .operand h⟩
  | .binary op l r span => by
    obtain ⟨bl, hl⟩ := Expr.crosses_reach l
    obtain ⟨br, hr⟩ := Expr.crosses_reach r
    exact exists_max (P := fun b n ↦ Expr.Crosses (.binary op l r span) b (n + 1)) ⟨true, .left hl⟩
      (.inr ⟨br, .right hr⟩)
  | .member e _ _ => by
    obtain ⟨b, h⟩ := Expr.crosses_reach e
    exact ⟨true, .base h⟩
  | .call e args span => by
    obtain ⟨b, h⟩ := Expr.crosses_reach e
    refine exists_max (P := fun b n ↦ Expr.Crosses (.call e args span) b (n + 1))
      ⟨true, .callee h⟩ ?_
    rcases crosses_reachArgs args with hzero | ⟨b, arg, hmem, harg⟩
    · exact .inl hzero
    · exact .inr ⟨b, .arg hmem harg⟩

/-- Without arguments there is no path into one. -/
theorem crosses_reachArgs : (args : List Expr) → reachArgs true args = 0 ∨
    ∃ b, ∃ arg ∈ args, arg.Crosses b (reachArgs true args)
  | [] => .inl rfl
  | arg :: args => by
    obtain ⟨b, h⟩ := Expr.crosses_reach arg
    right
    refine exists_max (P := fun b n ↦ ∃ a ∈ arg :: args, Expr.Crosses a b n)
      ⟨b, arg, List.mem_cons_self .., h⟩ ?_
    rcases crosses_reachArgs args with hzero | ⟨b, arg', hmem, h'⟩
    · exact .inl hzero
    · exact .inr ⟨b, arg', List.mem_cons_of_mem _ hmem, h'⟩

end

mutual

/-- **Some path from a statement crosses as many.** -/
theorem Stmt.crosses_reach : (s : Stmt) → ∃ b, s.Crosses b (s.reach true)
  | .declare name type none span => ⟨false, .bare name type span⟩
  | .declare _ _ (some e) _ => by
    obtain ⟨b, h⟩ := e.crosses_reach
    exact ⟨b, .init h⟩
  | .assign op e value span => by
    obtain ⟨be, he⟩ := e.crosses_reach
    obtain ⟨bv, hv⟩ := value.crosses_reach
    exact exists_max ⟨be, .target he⟩ (.inr ⟨bv, .value hv⟩)
  | .giveBack none span => ⟨false, .done span⟩
  | .giveBack (some e) _ => by
    obtain ⟨b, h⟩ := e.crosses_reach
    exact ⟨b, .result h⟩
  | .branch c body _ o _ => by
    obtain ⟨bc, hc⟩ := c.crosses_reach
    obtain ⟨bb, hbody⟩ := crosses_reachBody body
    refine exists_max ⟨bc, .branchCondition hc⟩ (.inr (exists_max ⟨bb, .branchBody hbody⟩ ?_))
    rcases Otherwise.crosses_reach o with hzero | ⟨bo, ho⟩
    · exact .inl hzero
    · exact .inr ⟨bo, .branchOtherwise ho⟩
  | .loop c body _ _ => by
    obtain ⟨bc, hc⟩ := c.crosses_reach
    obtain ⟨bb, hbody⟩ := crosses_reachBody body
    exact exists_max ⟨bc, .loopCondition hc⟩ (.inr ⟨bb, .loopBody hbody⟩)
  | .throw e _ => by
    obtain ⟨b, h⟩ := e.crosses_reach
    exact ⟨b, .thrown h⟩
  | .block body _ => by
    obtain ⟨b, h⟩ := crosses_reachBody body
    exact ⟨b, .block h⟩
  | .expr e _ => by
    obtain ⟨b, h⟩ := e.crosses_reach
    exact ⟨b, .expr h⟩

/-- Where nothing follows the block of a branch, there is no path into it. -/
theorem Otherwise.crosses_reach : (o : Otherwise) → o.reach true = 0 ∨
    ∃ b, o.Crosses b (o.reach true)
  | .nothing => .inl rfl
  | .block body _ => by
    obtain ⟨b, h⟩ := crosses_reachBody body
    exact .inr ⟨b, .block h⟩
  | .branch c body bodySpan o span => by
    obtain ⟨bc, hc⟩ := c.crosses_reach
    obtain ⟨bb, hbody⟩ := crosses_reachBody body
    right
    let P (b : Bool) (n : Nat) : Prop :=
      Otherwise.Crosses (.branch c body bodySpan o span) b (n + 1)
    have hinner : ∃ b, P b (max (reachBody true body + 1) (o.reach true)) := by
      refine exists_max ⟨bb, .body hbody⟩ ?_
      rcases Otherwise.crosses_reach o with hzero | ⟨bo, ho⟩
      · exact .inl hzero
      · exact .inr ⟨bo, .otherwise ho⟩
    exact exists_max (P := P) ⟨bc, .condition hc⟩ (.inr hinner)

theorem crosses_reachBody : (body : List Stmt) → ∃ b, CrossesBlock body b (reachBody true body + 1)
  | [] => ⟨false, .empty⟩
  | s :: rest => by
    obtain ⟨b, h⟩ := Stmt.crosses_reach s
    obtain ⟨br, hrest⟩ := crosses_reachBody rest
    refine exists_max (P := fun b n ↦ CrossesBlock (s :: rest) b (n + 1))
      ⟨b, .stmt (List.mem_cons_self ..) h⟩ ?_
    cases hrest with
    | empty => exact .inl rfl
    | stmt hmem h' => exact .inr ⟨br, .stmt (List.mem_cons_of_mem _ hmem) h'⟩

end

end Dossier.Script
