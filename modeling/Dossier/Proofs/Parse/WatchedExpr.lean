import Dossier.Proofs.Parse.Limits
import Dossier.Proofs.Parse.Watched

/-!
# Expressions under watch

`Settles x r` says that a computation comes to the outcome `r` from some number of rounds on, and
`Returns depth x r` says it of a parser that also leaves the stream at this depth.  So it takes off no
token that is not there, none of its loops goes on for ever, and what it has counted up it has set back.

The parsers of expressions return to every depth at which they start, with the outcome that the level of
the same depth has (`Watched.exprsAlike_ofRoom`).  The loops over operators and suffixes do not set the
depth back themselves, so that they are compared after whoever has started them has done it.  The
induction is on the levels that are left; the list of arguments, which is the only loop that stays on its
level, ends because each of its rounds takes a token off.
-/

set_option autoImplicit false

namespace Dossier.Script

open Text (Span)

/-! ## From some number of rounds on -/

/-- From some number of rounds on, this is the outcome. -/
def Settles {α : Type} (x : Nat → Except Interruption α) (r : Except Obstacle α) : Prop :=
  ∃ enough, ∀ rounds, enough ≤ rounds → x rounds = r.mapError .obstacle

namespace Settles

variable {α β : Type} {x : Nat → Except Interruption α} {r : Except Obstacle α}

theorem const {w : Except Interruption α} (h : w = r.mapError .obstacle) : Settles (fun _ ↦ w) r :=
  ⟨0, fun _ _ ↦ h⟩

protected theorem ok (a : α) : Settles (fun _ ↦ .ok a) (.ok a) := const rfl

/-- What has settled can be replaced by its outcome, from the larger of the two numbers on. -/
theorem replace {F : Nat → Except Interruption α → Except Interruption β} {t : Except Obstacle β}
    (hx : Settles x r) (hF : Settles (fun n ↦ F n (r.mapError .obstacle)) t) :
    Settles (fun n ↦ F n (x n)) t := by
  obtain ⟨enough, hx⟩ := hx
  obtain ⟨enough', hF⟩ := hF
  refine ⟨max enough enough', fun n hn ↦ ?_⟩
  show F n (x n) = _
  rw [hx n (Nat.le_trans (Nat.le_max_left _ _) hn)]
  exact hF n (Nat.le_trans (Nat.le_max_right _ _) hn)

/-- What is taken is gone on with. -/
theorem bind_ok {a : α} {f : Nat → α → Except Interruption β} {t : Except Obstacle β}
    (hx : Settles x (.ok a)) (hf : Settles (fun n ↦ f n a) t) : Settles (fun n ↦ x n >>= f n) t :=
  hx.replace (F := fun n y ↦ y >>= f n) hf

/-- What is taken is gone on with. -/
theorem recovering_ok {a : α} {f : Nat → α → Except Interruption β}
    {z : Nat → Obstacle → Except Interruption β} {t : Except Obstacle β} (hx : Settles x (.ok a))
    (hf : Settles (fun n ↦ f n a) t) :
    Settles (fun n ↦ Watched.recovering (x n) (f n) (z n)) t :=
  hx.replace (F := fun n y ↦ Watched.recovering y (f n) (z n)) hf

/-- What stands in the way of one stands in the way of the other. -/
theorem recovering_error {o : Obstacle} {f : Nat → α → Except Interruption β}
    {z : Nat → Obstacle → Except Interruption β} {t : Except Obstacle β}
    (hx : Settles x (.error o)) (hz : Settles (fun n ↦ z n o) t) :
    Settles (fun n ↦ Watched.recovering (x n) (f n) (z n)) t :=
  hx.replace (F := fun n y ↦ Watched.recovering y (f n) (z n)) hz

/-- What passes one round less on settles if what it passes it on to does. -/
theorem of_succ (h : Settles (fun n ↦ x (n + 1)) r) : Settles x r := by
  obtain ⟨enough, h⟩ := h
  refine ⟨enough + 1, fun n hn ↦ ?_⟩
  obtain ⟨n, rfl⟩ := Nat.exists_eq_add_of_le' (Nat.one_le_of_lt hn)
  exact h n (Nat.le_of_succ_le_succ hn)

theorem succ (h : Settles x r) : Settles (fun n ↦ x (n + 1)) r := by
  obtain ⟨enough, h⟩ := h
  exact ⟨enough, fun n hn ↦ h (n + 1) (Nat.le_succ_of_le hn)⟩

end Settles

/-- The outcome for tokens as one for a stream that is left at a depth. -/
def leaving {α : Type} (depth : Nat) (r : Except Obstacle (α × List Token)) :
    Except Obstacle (α × TokenStream) :=
  r.map fun (a, rest) ↦ (a, ⟨rest, depth⟩)

/-- From some number of rounds on, this is the outcome, and the stream is left at this depth. -/
def Returns {α : Type} (depth : Nat) (x : Nat → Except Interruption (α × TokenStream))
    (r : Except Obstacle (α × List Token)) : Prop :=
  Settles x (leaving depth r)

namespace Returns

variable {α β : Type} {depth : Nat} {x y : Nat → Except Interruption (α × TokenStream)}
variable {r s : Except Obstacle (α × List Token)}

theorem const {w : Except Interruption (α × TokenStream)}
    (h : w = (leaving depth r).mapError .obstacle) : Returns depth (fun _ ↦ w) r :=
  Settles.const h

protected theorem ok (a : α) (rest : List Token) :
    Returns depth (fun _ ↦ .ok (a, ⟨rest, depth⟩)) (.ok (a, rest)) := const rfl

protected theorem refuse (complaint : Complaint) (ts : List Token) (depth' : Nat) :
    Returns depth
      (fun _ ↦ (Watched.refuse complaint ⟨ts, depth'⟩ : Except Interruption (α × TokenStream)))
      (complain complaint ts) := const rfl

/-- A parser goes on where the one before it has left the stream. -/
protected theorem bind {f : Nat → α × TokenStream → Except Interruption (β × TokenStream)}
    {g : α × List Token → Except Obstacle (β × List Token)} {depth' : Nat}
    (hx : Returns depth' x r)
    (hf : ∀ a rest, r = .ok (a, rest) →
      Returns depth (fun n ↦ f n (a, ⟨rest, depth'⟩)) (g (a, rest))) :
    Returns depth (fun n ↦ x n >>= f n) (r >>= g) := by
  cases r with
  | error o => exact Settles.replace (F := fun n y ↦ y >>= f n) hx (.const rfl)
  | ok a => exact Settles.bind_ok hx (hf a.1 a.2 rfl)

/-- What is taken is gone on with. -/
theorem bind_ok {a : α} {rest : List Token} {depth' : Nat}
    {f : Nat → α × TokenStream → Except Interruption (β × TokenStream)}
    {t : Except Obstacle (β × List Token)} (hx : Returns depth' x (.ok (a, rest)))
    (hf : Returns depth (fun n ↦ f n (a, ⟨rest, depth'⟩)) t) :
    Returns depth (fun n ↦ x n >>= f n) t :=
  Settles.bind_ok hx hf

protected theorem ite {c : Prop} [Decidable c] (hx : c → Returns depth x r)
    (hy : ¬ c → Returns depth y s) :
    Returns depth (fun n ↦ if c then x n else y n) (if c then r else s) := by
  by_cases h : c
  · simpa only [if_pos h] using hx h
  · simpa only [if_neg h] using hy h

/-- What is taken is gone on with. -/
theorem recovering_ok {p : α × List Token} {depth' : Nat}
    {f : Nat → α × TokenStream → Except Interruption (β × TokenStream)}
    {z : Nat → Obstacle → Except Interruption (β × TokenStream)}
    {t : Except Obstacle (β × List Token)} (hx : Returns depth' x (.ok p))
    (hf : Returns depth (fun n ↦ f n (p.1, ⟨p.2, depth'⟩)) t) :
    Returns depth (fun n ↦ Watched.recovering (x n) (f n) (z n)) t :=
  Settles.recovering_ok hx hf

/-- An obstacle is passed on if it is final, and leads elsewhere if it is soft. -/
theorem unlessSoft_error {o : Obstacle} {depth' : Nat}
    {f : Nat → α × TokenStream → Except Interruption (β × TokenStream)}
    {z : Nat → Except Interruption (β × TokenStream)} {t : Except Obstacle (β × List Token)}
    (hx : Returns depth' x (.error o)) (hz : Returns depth z t) :
    Returns depth (fun n ↦ Watched.unlessSoft (x n) (f n) (z n))
      (if o.isFinal then .error o else t) := by
  refine Settles.recovering_error hx ?_
  by_cases h : o.isFinal = true
  · simp only [if_pos h]
    exact .const rfl
  · simp only [if_neg h]
    exact hz

/-- What passes one round less on settles if what it passes it on to does. -/
theorem of_succ (h : Returns depth (fun n ↦ x (n + 1)) r) : Returns depth x r := Settles.of_succ h

theorem succ (h : Returns depth x r) : Returns depth (fun n ↦ x (n + 1)) r := Settles.succ h

/-- What is set back is left at that depth. -/
protected theorem setBack {depth' : Nat} (h : Returns depth' x r) :
    Returns depth (fun n ↦ Watched.setBack depth (x n)) r := by
  refine Settles.replace (F := fun _ ↦ Watched.setBack depth) h (.const ?_)
  cases r <;> rfl

end Returns

namespace Watched

variable {α β : Type} {ts : List Token} {depth : Nat}

/-- What is done with what was taken may as well be set back itself. -/
theorem setBack_bind (x : Except Interruption α)
    (f : α → Except Interruption (β × TokenStream)) :
    setBack depth (x >>= f) = x >>= fun a ↦ setBack depth (f a) := by
  cases x <;> rfl

/-! ## Tokens -/

/-- Where a token that can be parsed is at the front, there is one. -/
theorem ne_nil_of_kind {kind : TokenKind} (h : (current ts).kind = kind) (hkind : kind.isProper) :
    ts ≠ [] :=
  ne_nil_of_proper (h ▸ hkind)

theorem cut_one (h : ts ≠ []) : cut 1 ⟨ts, depth⟩ = .ok ⟨ts.drop 1, depth⟩ :=
  if_pos (List.length_pos_of_ne_nil h)

/-- A token is taken off where there is one. -/
theorem returns_cut {f : Nat → TokenStream → Except Interruption (β × TokenStream)}
    {r : Except Obstacle (β × List Token)} {depth' : Nat} (h : ts ≠ [])
    (hf : Returns depth (fun n ↦ f n ⟨ts.drop 1, depth'⟩) r) :
    Returns depth (fun n ↦ cut 1 ⟨ts, depth'⟩ >>= f n) r := by
  rw [cut_one h]
  exact hf

theorem takeSymbol_at {mark : Symbol} (h : atSymbol mark ts = true) :
    takeSymbol mark ⟨ts, depth⟩ = .ok (current ts, ⟨ts.drop 1, depth⟩) := by
  simp only [takeSymbol, if_pos h, cut_one (ne_nil_of_atSymbol h)]
  rfl

/-- A symbol is taken that has been seen before. -/
theorem returns_takeSymbol_at {mark : Symbol} {depth' : Nat}
    {f : Nat → Token × TokenStream → Except Interruption (β × TokenStream)}
    {r : Except Obstacle (β × List Token)} (h : atSymbol mark ts = true)
    (hf : Returns depth (fun n ↦ f n (current ts, ⟨ts.drop 1, depth'⟩)) r) :
    Returns depth (fun n ↦ takeSymbol mark ⟨ts, depth'⟩ >>= f n) r := by
  rw [takeSymbol_at h]
  exact hf

theorem returns_takeSymbol (mark : Symbol) (ts : List Token) (depth : Nat) :
    Returns depth (fun _ ↦ takeSymbol mark ⟨ts, depth⟩) (Script.takeSymbol mark ts) := by
  by_cases h : atSymbol mark ts = true
  · rw [takeSymbol_at h, Script.takeSymbol, if_pos h]
    exact .ok _ _
  · simp only [takeSymbol, Script.takeSymbol, if_neg h]
    exact .refuse _ ts depth

theorem returns_takeName (ts : List Token) (depth : Nat) :
    Returns depth (fun _ ↦ takeName ⟨ts, depth⟩) (Script.takeName ts) := by
  refine .const ?_
  rcases ts with _ | ⟨⟨kind, span⟩, ts⟩
  · rfl
  · cases kind <;> rfl

/-! ## Operands and arguments -/

theorem returns_intLiteral (digits : String) (span : Span) (ts : List Token) :
    Returns depth (fun _ ↦ intLiteral digits ⟨⟨.int digits, span⟩ :: ts, depth⟩)
      (ExprLevel.intLiteral digits span (⟨.int digits, span⟩ :: ts) ts) := by
  refine returns_cut (List.cons_ne_nil _ _) ?_
  exact .ite (fun _ ↦ .ok _ _) fun _ ↦ .refuse _ _ depth

section Expression

variable {e : Nat → Watched Expr} {expression : Parser Expr}
variable (he : ∀ ts, Returns depth (fun n ↦ e n ⟨ts, depth⟩) (expression ts))
include he

theorem returns_group (opening : Span) (ts : List Token) :
    Returns depth (fun n ↦ group (e n) ⟨⟨.symbol .openParen, opening⟩ :: ts, depth⟩)
      (ExprLevel.group expression ts) := by
  refine returns_takeSymbol_at rfl ?_
  refine (he ts).bind fun inner ts _ ↦ ?_
  exact (returns_takeSymbol .closeParen ts depth).bind fun _ _ _ ↦ .ok _ _

theorem returns_operand (ts : List Token) :
    Returns depth (fun n ↦ operand (e n) ⟨ts, depth⟩) (ExprLevel.operand expression ts) := by
  rcases ts with _ | ⟨⟨kind, span⟩, ts⟩
  · exact .refuse _ [] depth
  cases kind with
  | int digits => exact returns_intLiteral digits span ts
  | float | string | name => exact .const rfl
  | keyword word => cases word <;> exact .const rfl
  | invalid | done => exact .const rfl
  | symbol mark =>
    by_cases hmark : mark = .openParen
    · subst hmark
      have hgroup := returns_group he span ts
      simp only [operand, ExprLevel.operand]
      cases hx : ExprLevel.group expression ts with
      | ok r => exact (hx ▸ hgroup).recovering_ok (.ok r.1 r.2)
      | error o => exact (hx ▸ hgroup).unlessSoft_error (.refuse _ _ depth)
    · cases mark <;> first | exact absurd rfl hmark | exact .const rfl

/-- Each round takes a comma off, so that the rounds are no more than the tokens. -/
theorem returns_moreArguments
    (hshorter : ∀ ts arg rest, expression ts = .ok (arg, rest) → rest.length ≤ ts.length)
    {fuel : Nat} (hfuel : ts.length ≤ fuel) :
    Returns depth (fun n ↦ moreArguments (e n) n ⟨ts, depth⟩)
      (ExprLevel.moreArguments expression fuel ts) := by
  induction fuel generalizing e ts with
  | zero =>
    obtain rfl := List.length_eq_zero_iff.1 (Nat.le_zero.1 hfuel)
    exact .of_succ (.ok _ _)
  | succ fuel ih =>
    refine .of_succ ?_
    simp only [moreArguments]
    rw [ExprLevel.moreArguments]
    refine .ite (fun hcomma ↦ ?_) fun _ ↦ .ok _ _
    refine returns_takeSymbol_at hcomma ?_
    have hdrop := length_drop_one (ne_nil_of_atSymbol hcomma)
    have harg := (he (ts.drop 1)).succ
    cases hx : expression (ts.drop 1) with
    | error o => exact (hx ▸ harg).unlessSoft_error (.ok _ _)
    | ok r =>
      have hrest := hshorter _ _ _ hx
      refine (hx ▸ harg).recovering_ok ?_
      exact (ih (fun ts ↦ (he ts).succ) (by omega)).bind fun _ _ _ ↦ .ok _ _

theorem returns_arguments
    (hshorter : ∀ ts arg rest, expression ts = .ok (arg, rest) → rest.length ≤ ts.length)
    (ts : List Token) : Returns depth (fun n ↦ arguments (e n) n ⟨ts, depth⟩)
      (ExprLevel.arguments expression ts) := by
  have harg := he ts
  rw [ExprLevel.arguments]
  cases hx : expression ts with
  | error o => exact (hx ▸ harg).unlessSoft_error (.ok _ _)
  | ok r =>
    refine (hx ▸ harg).recovering_ok ?_
    exact (returns_moreArguments he hshorter (Nat.le_refl _)).bind fun _ _ _ ↦ .ok _ _

end Expression

/-! ## The parsers of a depth -/

open ExprLevel (ofRoom below deeper)

/-- The parsers that start at a depth come to the same outcomes as those of the level with so much room,
and return to the depth; the loops do when they are set back. -/
structure ExprsAlike (room depth : Nat) : Prop where
  expression : ∀ ts,
    Returns depth (fun n ↦ expression n ⟨ts, depth⟩) ((ofRoom room).expression ts)
  binary : ∀ least ts,
    Returns depth (fun n ↦ binary n least ⟨ts, depth⟩) ((ofRoom room).binary least ts)
  operators : ∀ base least left ts,
    Returns base (fun n ↦ setBack base (operators n least left ⟨ts, depth⟩))
      ((ofRoom room).operators least left ts)
  unary : ∀ ts, Returns depth (fun n ↦ unary n ⟨ts, depth⟩) ((ofRoom room).unary ts)
  suffixes : ∀ base e ts,
    Returns base (fun n ↦ setBack base (suffixes n e ⟨ts, depth⟩)) ((ofRoom room).suffixes e ts)

/-- The next depth is like the level below, if there is one. -/
def ExprsAlikeBelow (room depth : Nat) : Prop :=
  ∀ room', room = room' + 1 → ExprsAlike room' (depth + 1)

/-- Nothing is put back in front of an expression. -/
theorem length_le_of_expression (room : Nat) (ts : List Token) (e : Expr) (rest : List Token)
    (h : (ofRoom room).expression ts = .ok (e, rest)) : rest.length ≤ ts.length := by
  obtain ⟨us, rfl, -⟩ := (ExprLevel.sound_ofRoom room).expression ts e rest h
  exact (List.suffix_append us rest).length_le

section Depth

variable {room : Nat} (hdepth : room + depth = maxNesting)
include hdepth

/-- The counter stops at the same depth as the levels do. -/
theorem returns_descending {base : Nat} {parser : Nat → Watched α}
    {r : Except Obstacle (α × List Token)} (hlast : room = 0 → r = complain .tooComplex ts)
    (h : ∀ room', room = room' + 1 →
      Returns base (fun n ↦ setBack base (parser n ⟨ts, depth + 1⟩)) r) :
    Returns base (fun n ↦ setBack base (descending (parser n) ⟨ts, depth⟩)) r := by
  rcases room with _ | room
  · have hfull : ¬ depth < maxNesting := by omega
    simp only [descending, if_neg hfull, hlast rfl]
    exact .const rfl
  · have hroom : depth < maxNesting := by omega
    simp only [descending, if_pos hroom]
    exact h room rfl

theorem returns_deeperExpr {base : Nat} {parser : Nat → Watched α}
    {parser' : ExprLevel → Parser α}
    (h : ∀ room', room = room' + 1 →
      Returns base (fun n ↦ setBack base (parser n ⟨ts, depth + 1⟩)) (parser' (ofRoom room') ts)) :
    Returns base (fun n ↦ setBack base (descending (parser n) ⟨ts, depth⟩))
      (deeper (below room) parser' ts) := by
  refine returns_descending hdepth ?_ ?_
  · rintro rfl
    rfl
  · rintro room' rfl
    exact h room' rfl

variable (hbelow : ExprsAlikeBelow room depth)
include hbelow

theorem returns_expression (ts : List Token) :
    Returns depth (fun n ↦ expression n ⟨ts, depth⟩)
      (deeper (below room) (fun level ↦ level.binary 0) ts) :=
  returns_deeperExpr hdepth fun room' h ↦ ((hbelow room' h).binary 0 ts).setBack

theorem returns_suffixes (base : Nat) (e : Expr) (ts : List Token) :
    Returns base (fun n ↦ setBack base (suffixes n e ⟨ts, depth⟩))
      (ExprLevel.suffixesWith (below room) e ts) := by
  refine .of_succ ?_
  simp only [suffixes, apply_ite (setBack base)]
  rw [ExprLevel.suffixesWith]
  refine .ite (fun hopen ↦ ?_) fun _ ↦ .ite (fun hdot ↦ ?_) fun _ ↦ .ok _ _
  · refine returns_deeperExpr hdepth fun room' h ↦ ?_
    simp only [setBack_bind]
    refine returns_takeSymbol_at hopen ?_
    have hlevel := hbelow room' h
    refine (returns_arguments hlevel.expression (length_le_of_expression room') _).bind
      fun args ts _ ↦ ?_
    refine (returns_takeSymbol .closeParen ts _).bind fun close ts _ ↦ ?_
    exact hlevel.suffixes base _ ts
  · refine returns_deeperExpr hdepth fun room' h ↦ ?_
    simp only [setBack_bind]
    refine returns_takeSymbol_at hdot ?_
    refine (returns_takeName _ _).bind fun member ts _ ↦ ?_
    exact (hbelow room' h).suffixes base _ ts

theorem returns_unary (ts : List Token) : Returns depth (fun n ↦ unary n ⟨ts, depth⟩)
    (ExprLevel.unaryWith (below room) ts) := by
  refine .of_succ ?_
  simp only [unary]
  rw [ExprLevel.unaryWith]
  cases hop : ExprLevel.unaryOp? (current ts) with
  | some op =>
    have hne := ne_nil_of_kind (ExprLevel.kind_of_unaryOp? hop) rfl
    refine returns_cut hne ?_
    refine Returns.bind ?_ fun _ _ _ ↦ .ok _ _
    exact returns_deeperExpr hdepth fun room' h ↦ ((hbelow room' h).unary _).setBack
  | none =>
    simp only [restoring, setBack_bind]
    refine (returns_operand (returns_expression hdepth hbelow) ts).bind fun e ts _ ↦ ?_
    exact returns_suffixes hdepth hbelow depth e ts

theorem returns_operators (base least : Nat) (left : Expr) (ts : List Token) :
    Returns base (fun n ↦ setBack base (operators n least left ⟨ts, depth⟩))
      (ExprLevel.operatorsWith (below room) least left ts) := by
  refine .of_succ ?_
  simp only [operators]
  rw [ExprLevel.operatorsWith]
  cases hop : ExprLevel.binaryOp? (current ts) with
  | none => exact .ok _ _
  | some op =>
    have hne := ne_nil_of_kind (ExprLevel.kind_of_binaryOp? hop) rfl
    simp only [apply_ite (setBack base)]
    refine .ite (fun _ ↦ .ok _ _) fun _ ↦ ?_
    refine returns_deeperExpr hdepth fun room' h ↦ ?_
    simp only [setBack_bind]
    refine returns_cut hne ?_
    refine ((hbelow room' h).binary _ _).bind fun right ts _ ↦ ?_
    exact (hbelow room' h).operators base _ _ ts

/-- **A depth is like its level if the next one is.** -/
theorem exprsAlike_of_below : ExprsAlike room depth := by
  constructor
  all_goals rw [ExprLevel.ofRoom_eq_above]
  · exact returns_expression hdepth hbelow
  · refine fun least ts ↦ .of_succ ?_
    simp only [binary, restoring, setBack_bind]
    refine (returns_unary hdepth hbelow ts).bind fun left ts _ ↦ ?_
    exact returns_operators hdepth hbelow depth least left ts
  · exact returns_operators hdepth hbelow
  · exact returns_unary hdepth hbelow
  · exact returns_suffixes hdepth hbelow

end Depth

/-- **All depths are like their levels.** -/
theorem exprsAlike_ofRoom {room depth : Nat} (hdepth : room + depth = maxNesting) :
    ExprsAlike room depth := by
  induction room generalizing depth with
  | zero => exact exprsAlike_of_below hdepth nofun
  | succ room ih =>
    refine exprsAlike_of_below hdepth fun room' h ↦ ?_
    obtain rfl := Nat.succ.inj h
    exact ih (by omega)

end Watched

end Dossier.Script
