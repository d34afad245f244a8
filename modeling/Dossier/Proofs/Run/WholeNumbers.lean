import Dossier.Proofs.Run.Fuel
import Dossier.Proofs.Run.Points
import Dossier.Script.Binding.Stmt

/-!
# Whole numbers in a run

The operators on whole numbers are those of the integers, reduced to 64 bits with a sign.

* `ComputesWrapped x y` says what they give for two numbers.  A sum, a difference, a product and a
  negation are always there, a quotient and a remainder unless the divisor is zero.  The quotient is
  cut toward zero; for the least number divided by -1 it wraps around to the least number again, and
  the remainder is zero.
* `exact_div_mod`: the quotient times the divisor, and the remainder, add up to the dividend, since
  they do so before they are reduced.
* `ComputesInRuns x y` says that the operators of expressions give this in every run, and that an
  assignment with an operator stores it, or fails, as the expression with the operator would.
* `wholeNumbers_compute` is both.
-/

set_option autoImplicit false

namespace Dossier.Script

/-! ## The operators -/

/-- The result is there, and it is the integer reduced to 64 bits. -/
def Wraps (r : Except Fault Value) (n : Int) : Prop :=
  ∃ c : Int64, r = .ok (.int c) ∧ c.toInt = n.bmod (Number.twoTo 64)

/-- What the quotient `q` and the remainder `r` of `x` by `y` are to each other. -/
structure Divides (x y q r : Int64) : Prop where
  /-- The quotient is cut toward zero, and reduced to 64 bits. -/
  quotient : q.toInt = (x.toInt.tdiv y.toInt).bmod (Number.twoTo 64)
  /-- The remainder is zero or has the sign of the dividend. -/
  sign : r = 0 ∨ r.toInt.sign = x.toInt.sign
  /-- The remainder is smaller than the divisor. -/
  small : r.toInt.natAbs < y.toInt.natAbs
  /-- The quotient times the divisor, and the remainder, are the dividend. -/
  whole : ∃ p, BinaryOp.mul.apply (.int q) (.int y) = .ok (.int p) ∧
    BinaryOp.add.apply (.int p) (.int r) = .ok (.int x)

/-- What the operators give for two whole numbers. -/
structure ComputesWrapped (x y : Int64) : Prop where
  add : Wraps (BinaryOp.add.apply (.int x) (.int y)) (x.toInt + y.toInt)
  sub : Wraps (BinaryOp.sub.apply (.int x) (.int y)) (x.toInt - y.toInt)
  mul : Wraps (BinaryOp.mul.apply (.int x) (.int y)) (x.toInt * y.toInt)
  neg : Wraps (UnaryOp.neg.apply (.int x)) (-x.toInt)
  /-- Only zero divides nothing. -/
  div_fails : (∃ f, BinaryOp.div.apply (.int x) (.int y) = .error f) ↔ y = 0
  mod_fails : (∃ f, BinaryOp.mod.apply (.int x) (.int y) = .error f) ↔ y = 0
  divides : y ≠ 0 → ∃ q r, BinaryOp.div.apply (.int x) (.int y) = .ok (.int q) ∧
    BinaryOp.mod.apply (.int x) (.int y) = .ok (.int r) ∧ Divides x y q r

/-- A division fails on zero and on nothing else. -/
theorem BinaryOp.dividing_fails_iff (f : Int64 → Int64 → Int64) (x y : Int64) :
    (∃ fault, dividing f x y = .error fault) ↔ y = 0 := by
  unfold dividing
  split
  · next h => exact ⟨fun _ ↦ h, fun _ ↦ ⟨_, rfl⟩⟩
  · next h => exact ⟨fun ⟨_, h'⟩ ↦ (nomatch h'), fun h' ↦ absurd h' h⟩

theorem BinaryOp.dividing_of_ne_zero (f : Int64 → Int64 → Int64) (x : Int64) {y : Int64}
    (h : y ≠ 0) : dividing f x y = .ok (.int (f x y)) := if_neg h

/-- **The quotient times the divisor, and the remainder, are the dividend**, wherever the products
wrap around. -/
theorem exact_div_mod (x y : Int64) : x / y * y + x % y = x := by
  refine Int64.toInt_inj.1 ?_
  calc (x / y * y + x % y).toInt
      = (((x.toInt.tdiv y.toInt).bmod (Number.twoTo 64) * y.toInt).bmod (Number.twoTo 64) +
          x.toInt.tmod y.toInt).bmod (Number.twoTo 64) := by
        rw [Int64.toInt_add, Int64.toInt_mul, Int64.toInt_div, Int64.toInt_mod]
        rfl
    _ = (x.toInt.tdiv y.toInt * y.toInt + x.toInt.tmod y.toInt).bmod (Number.twoTo 64) := by
        rw [Int.bmod_add_bmod, ← Int.bmod_add_bmod, Int.bmod_mul_bmod, Int.bmod_add_bmod]
    _ = x.toInt.bmod (Number.twoTo 64) := by rw [Int.tdiv_mul_add_tmod]
    _ = x.toInt := x.toInt_bmod

theorem toInt_ne_zero {y : Int64} (h : y ≠ 0) : y.toInt ≠ 0 := by
  intro hzero
  exact h (Int64.toInt_inj.1 (hzero.trans Int64.toInt_zero.symm))

theorem divides_div_mod (x : Int64) {y : Int64} (h : y ≠ 0) : Divides x y (x / y) (x % y) where
  quotient := Int64.toInt_div x y
  sign := by
    have hsign := Int.sign_tmod x.toInt y.toInt
    rw [← Int64.toInt_mod] at hsign
    split at hsign
    · exact .inl (Int64.toInt_inj.1 ((Int.sign_eq_zero_iff_zero.1 hsign).trans
        Int64.toInt_zero.symm))
    · exact .inr hsign
  small := by
    rw [Int64.toInt_mod, Int.natAbs_tmod]
    exact Nat.mod_lt _ (Int.natAbs_pos.2 (toInt_ne_zero h))
  whole := ⟨x / y * y, rfl, congrArg (fun n ↦ Except.ok (Value.int n)) (exact_div_mod x y)⟩

theorem computesWrapped (x y : Int64) : ComputesWrapped x y where
  add := ⟨x + y, rfl, Int64.toInt_add x y⟩
  sub := ⟨x - y, rfl, Int64.toInt_sub x y⟩
  mul := ⟨x * y, rfl, Int64.toInt_mul x y⟩
  neg := ⟨-x, rfl, Int64.toInt_neg x⟩
  div_fails := BinaryOp.dividing_fails_iff (· / ·) x y
  mod_fails := BinaryOp.dividing_fails_iff (· % ·) x y
  divides h := ⟨x / y, x % y, BinaryOp.dividing_of_ne_zero (· / ·) x h,
    BinaryOp.dividing_of_ne_zero (· % ·) x h, divides_div_mod x h⟩

/-! ## In a run -/

namespace Point

/-- The code at a point comes to a result: it has the value, or the run fails for the fault. -/
def ComesTo (pt : Point) (e : BoundExpr) (r : Except Fault Value) (w : Machine) : Prop :=
  ∃ fuel, evaluate fuel pt.activation pt.slots e pt.machine = pt.activation.lift r w

/-- A statement at a point stores a result, or the run fails for the fault. -/
def StoresIn (pt : Point) (c : BoundStmt) (i : Nat) (r : Except Fault Value) (w : Machine) : Prop :=
  ∃ fuel, execute fuel pt.activation pt.slots c pt.machine =
    (pt.activation.lift r >>= fun v ↦ pure (pt.slots.setIfInBounds i v, .next)) w

end Point

/-- Is the operator neither the conjunction nor the disjunction, so that both operands are there? -/
def BinaryOp.IsStrict (op : BinaryOp) : Prop := op ≠ .and ∧ op ≠ .or

/-- The assignment puts whole numbers into a local as they are: it has their type, or none. -/
def Local.TakesInt (l : Local) : Prop := l.type = none ∨ l.type = some .int

/-- What the operators give for two whole numbers in runs. -/
structure ComputesInRuns (x y : Int64) : Prop where
  neg : ∀ (pt : Point) e w, pt.Gives e (.int x) w →
    pt.ComesTo (.unary .neg e) (UnaryOp.neg.apply (.int x)) w
  binary : ∀ (pt : Point) (op : BinaryOp) l r w w', op.IsStrict → pt.Gives l (.int x) w →
    (pt.go (.expr r) w).Gives r (.int y) w' →
    pt.ComesTo (.binary op l r) (op.apply (.int x) (.int y)) w'
  /-- Operands that change nothing make up the dividend again. -/
  whole : ∀ (pt : Point) l r, y ≠ 0 → pt.Gives l (.int x) pt.machine →
    pt.Gives r (.int y) pt.machine →
    pt.Gives (.binary .add (.binary .mul (.binary .div l r) r) (.binary .mod l r)) (.int x)
      pt.machine
  /-- An assignment with an operator to a local with the first number comes to what the operator
  comes to between the local and the value. -/
  assign : ∀ (pt : Point) (s : Surroundings) (scopes : Scopes) (op : AssignOp) (bop : BinaryOp)
    (n : Name) (l : Local) (e : Expr) w, op.binary? = some bop → scopes.find? n.text = some l →
    l.TakesInt → pt.slots[l.slot]? = some (.int x) →
    pt.Gives (s.bindExpr scopes e).value (.int y) w →
    (∀ span, pt.ComesTo (s.bindExpr scopes (.binary bop (.name n) e span)).value
      (bop.apply (.int x) (.int y)) w) ∧
    pt.StoresIn (s.bindAssign scopes op (.name n) e).value l.slot
      (bop.apply (.int x) (.int y)) w

namespace Point

variable {pt : Point} {l r e : BoundExpr} {v v' : Value} {w w' : Machine}

theorem comesTo_ok : pt.ComesTo e (.ok v) w ↔ pt.Gives e v w := Iff.rfl

/-- An end that is reached is reached with more fuel. -/
theorem exists_evaluate_eq (h : pt.Gives e v w) :
    ∃ n, ∀ fuel, n ≤ fuel → evaluate fuel pt.activation pt.slots e pt.machine = .ok v w := by
  obtain ⟨n, h⟩ := h
  exact ⟨n, fun fuel hfuel ↦ ((moreFuel hfuel).evaluate _ _ _).eq_of_ok h⟩

theorem comesTo_unary (op : UnaryOp) (h : pt.Gives e v w) :
    pt.ComesTo (.unary op e) (op.apply v) w := by
  obtain ⟨fuel, h⟩ := h
  exact ⟨fuel + 1, bind_of_ok h⟩

/-- **Both operands one after the other, and then the operator.** -/
theorem comesTo_binary {op : BinaryOp} (hop : op.IsStrict) (hl : pt.Gives l v w)
    (hr : (pt.go (.expr r) w).Gives r v' w') : pt.ComesTo (.binary op l r) (op.apply v v') w' := by
  obtain ⟨n, hn⟩ := exists_evaluate_eq hl
  obtain ⟨k, hk⟩ := exists_evaluate_eq hr
  refine ⟨max n k + 1, ?_⟩
  have hleft := hn (max n k) (Nat.le_max_left n k)
  have hright := hk (max n k) (Nat.le_max_right n k)
  cases op with
  | and => exact absurd rfl hop.1
  | or => exact absurd rfl hop.2
  | _ => exact (bind_of_ok hleft).trans (bind_of_ok hright)

/-- Operands that are evaluated on the machine of the point and leave it as it is. -/
theorem gives_binary (op : BinaryOp) {u : Value} (hop : op.IsStrict)
    (hl : pt.Gives l v pt.machine) (hr : pt.Gives r v' pt.machine) (h : op.apply v v' = .ok u) :
    pt.Gives (.binary op l r) u pt.machine := by
  rw [← comesTo_ok, ← h]
  exact comesTo_binary hop hl hr

theorem gives_slot {i : Nat} (h : pt.slots[i]? = some v) : pt.Gives (.slot i) v pt.machine := by
  refine ⟨1, ?_⟩
  rw [evaluate, Activation.load, h]
  rfl

end Point

variable {x y : Int64}

/-- The operators of assignments give whole numbers, or fail. -/
theorem AssignOp.apply_int {op : AssignOp} {bop : BinaryOp} (h : op.binary? = some bop)
    (x y : Int64) : (∃ c, bop.apply (.int x) (.int y) = .ok (.int c)) ∨
      ∃ f, bop.apply (.int x) (.int y) = .error f := by
  cases op with
  | set => cases h
  | div =>
    cases h
    by_cases hy : y = 0
    · exact .inr ((computesWrapped x y).div_fails.2 hy)
    · obtain ⟨q, _, hq, _⟩ := (computesWrapped x y).divides hy
      exact .inl ⟨q, hq⟩
  | _ =>
    cases h
    exact .inl ⟨_, rfl⟩

theorem AssignOp.isStrict_of_binary {op : AssignOp} {bop : BinaryOp} (h : op.binary? = some bop) :
    bop.IsStrict := by
  cases op <;> cases h <;> exact ⟨nofun, nofun⟩

theorem Local.TakesInt.assigned {l : Local} (h : l.TakesInt) (a : Activation) (c : Int64) :
    a.assigned l.type (.int c) = pure (.int c) := by
  rcases h with h | h <;>
    rw [h] <;> rfl

/-- **An assignment with an operator** loads the old value after the new one has been evaluated, and
stores what the operator gives for them. -/
theorem Point.storesIn_update {pt : Point} {l : Local} {op : AssignOp} {bop : BinaryOp}
    {e : BoundExpr} {w : Machine} (hop : op.binary? = some bop) (hl : l.TakesInt)
    (hold : pt.slots[l.slot]? = some (.int x)) (he : pt.Gives e (.int y) w) :
    pt.StoresIn (.assign l.slot l.type (some bop) e) l.slot (bop.apply (.int x) (.int y)) w := by
  obtain ⟨fuel, he⟩ := he
  refine ⟨fuel + 1, (bind_of_ok he).trans ?_⟩
  simp only [Activation.load, hold, pure_bind]
  rcases AssignOp.apply_int hop x y with ⟨c, hc⟩ | ⟨f, hf⟩
  · have hsize : l.slot < pt.slots.size := (Array.getElem?_eq_some_iff.1 hold).1
    simp only [hc, Activation.lift, pure_bind, hl.assigned, Activation.store, if_pos hsize]
  · rw [hf]
    rfl

theorem computesInRuns (x y : Int64) : ComputesInRuns x y where
  neg _ _ _ h := Point.comesTo_unary .neg h
  binary _ _ _ _ _ _ hop hl hr := Point.comesTo_binary hop hl hr
  whole pt l r hy hl hr := by
    have hdiv := Point.gives_binary .div ⟨nofun, nofun⟩ hl hr
      (BinaryOp.dividing_of_ne_zero (· / ·) x hy)
    have hmod := Point.gives_binary .mod ⟨nofun, nofun⟩ hl hr
      (BinaryOp.dividing_of_ne_zero (· % ·) x hy)
    have hmul := Point.gives_binary .mul ⟨nofun, nofun⟩ hdiv hr rfl
    refine Point.gives_binary .add ⟨nofun, nofun⟩ hmul hmod ?_
    exact congrArg (fun n ↦ Except.ok (Value.int n)) (exact_div_mod x y)
  assign pt s scopes op bop n l e w hop hfind hl hold he := by
    constructor
    · intro span
      have hleft : (s.bindExpr scopes (.name n)).value = .slot l.slot := by
        rw [Surroundings.bindExpr, hfind]
        rfl
      show pt.ComesTo (.binary bop (s.bindExpr scopes (.name n)).value _) _ w
      rw [hleft]
      exact Point.comesTo_binary (AssignOp.isStrict_of_binary hop) (Point.gives_slot hold) he
    · have hbound : (s.bindAssign scopes op (.name n) e).value =
          .assign l.slot l.type (some bop) (s.bindExpr scopes e).value := by
        rw [← hop]
        simp only [Surroundings.bindAssign, hfind]
        rfl
      rw [hbound]
      exact Point.storesIn_update hop hl hold he

/-- **The operators on whole numbers are exact up to multiples of 2^64**, and fail only where a number
is divided by zero; a run gives, and stores, what they give. -/
theorem wholeNumbers_compute (x y : Int64) : ComputesWrapped x y ∧ ComputesInRuns x y :=
  ⟨computesWrapped x y, computesInRuns x y⟩

/-- A run in which the least number is in the only local. -/
def leastPoint : Point :=
  ⟨⟨⟨[]⟩, default, .null⟩, #[.int Int64.minValue], [⟨0, some .int⟩], .stmts [], .fresh⟩

/-- **The least number divided by -1** is the least number, nothing remains, and `x /= -1` stores
it. -/
theorem wholeNumbers_compute_least :
    (∃ q r, BinaryOp.div.apply (.int Int64.minValue) (.int (-1)) = .ok (.int q) ∧
      BinaryOp.mod.apply (.int Int64.minValue) (.int (-1)) = .ok (.int r) ∧
      q = Int64.minValue ∧ r = 0 ∧ Divides Int64.minValue (-1) q r) ∧
    leastPoint.StoresIn (.assign 0 (some .int) (some .div) (.const (.int (-1)))) 0
      (.ok (.int Int64.minValue)) .fresh := by
  have h := wholeNumbers_compute Int64.minValue (-1)
  constructor
  · obtain ⟨q, r, hq, hr, hdivides⟩ := h.1.divides (by decide)
    refine ⟨q, r, hq, hr, ?_, ?_, hdivides⟩
    · cases hq
      decide
    · cases hr
      decide
  · exact (h.2.assign leastPoint ⟨[], [], 0, "", default⟩ [[("x", ⟨0, some .int⟩)]] .div .div
      ⟨"x", default⟩ ⟨0, some .int⟩ (.literal (.int (-1)) default) .fresh rfl rfl (.inr rfl) rfl
      ⟨1, rfl⟩).2

end Dossier.Script
