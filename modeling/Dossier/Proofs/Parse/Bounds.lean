import Dossier.Proofs.Parse.Nesting
import Dossier.Script.Parse.Body

/-!
# How deep parsed bodies nest

Each level of the parser goes one deeper for an operator, a call, a member, a group and a block.
What this bounds is shown here.

* A path that enters no first operand crosses no more nodes than there are levels.
* A path into a first operand may cross more.  The levels that an operand takes are given back at
  its end, while the operators, calls and members that follow it are put around it one after the
  other, each from a level of its own.  So an operand of a level with `room` levels below it nests
  to `room * room` at most, and not to `room`.

`ExprLevel.Bounded` and `StmtLevel.Bounded` state the bounds for a level, and follow from those for
the next one.  `nesting_of_parse` is the result for bodies, and `deepText` a body whose tree nests
deeper than there are levels.
-/

set_option autoImplicit false

namespace Dossier.Script

/-! ## What a parser yields -/

/-- What the parser takes off the front of the tokens has the property. -/
def Gives {α : Type} (r : Except Obstacle (α × List Token)) (P : α → Prop) : Prop :=
  ∀ a rest, r = .ok (a, rest) → P a

/-- The same on all tokens. -/
def Yields {α : Type} (parser : Parser α) (P : α → Prop) : Prop := ∀ ts, Gives (parser ts) P

namespace Gives

variable {α β : Type} {r : Except Obstacle (α × List Token)} {P : α → Prop} {Q : β → Prop}

theorem ok {a : α} {rest : List Token} (h : P a) : Gives (.ok (a, rest)) P := by
  rintro _ _ ⟨⟩
  exact h

theorem error (o : Obstacle) : Gives (.error o) P := by
  rintro _ _ ⟨⟩

protected theorem bind {f : α × List Token → Except Obstacle (β × List Token)} (hr : Gives r P)
    (hf : ∀ a rest, P a → Gives (f (a, rest)) Q) : Gives (r >>= f) Q := by
  cases r with
  | error o => exact .error o
  | ok x => exact hf x.1 x.2 (hr x.1 x.2 rfl)

theorem trivial (r : Except Obstacle (α × List Token)) : Gives r fun _ ↦ True :=
  fun _ _ _ ↦ True.intro

theorem mono {P' : α → Prop} (h : Gives r P) (hP : ∀ a, P a → P' a) : Gives r P' :=
  fun a rest hr ↦ hP a (h a rest hr)

end Gives

/-! ## Expressions -/

/-- The paths from the expression cross at most `all` nodes that nest, and at most `straight` if
they enter no first operand. -/
def Expr.Within (straight all : Nat) (e : Expr) : Prop :=
  e.reach false ≤ straight ∧ e.reach true ≤ all

/-- The same of paths from arguments. -/
def ArgsWithin (straight all : Nat) (args : List Expr) : Prop :=
  reachArgs false args ≤ straight ∧ reachArgs true args ≤ all

namespace ExprLevel

/-- How deep the expressions nest that the parsers of a level yield, with `room` levels below it. -/
structure Bounded (level : ExprLevel) (room : Nat) : Prop where
  expression : Yields level.expression (Expr.Within room (room * room - room))
  binary : ∀ least, Yields (level.binary least) (Expr.Within room (room * room + room))
  operators : ∀ least left, Yields (level.operators least left)
    (Expr.Within (max (left.reach false) room)
      (max (left.reach true) (room * room - room) + room))
  unary : Yields level.unary (Expr.Within room (room * room))
  suffixes : ∀ base, Yields (level.suffixes base)
    (Expr.Within (max (base.reach false) room)
      (max (base.reach true) (room * room - room) + room))

/-- The level below, if there is one, has one level less below it. -/
def Inner (inner : Option ExprLevel) (room : Nat) : Prop :=
  ∀ level ∈ inner, ∃ r, room = r + 1 ∧ level.Bounded r

theorem succ_sq (r : Nat) : (r + 1) * (r + 1) = r * r + 2 * r + 1 := by
  rw [Nat.add_mul, Nat.mul_add]
  omega

variable {inner : Option ExprLevel} {room : Nat}

theorem yields_deeper {α : Type} {parser : ExprLevel → Parser α} {P : α → Prop}
    (hi : Inner inner room)
    (h : ∀ level r, room = r + 1 → level.Bounded r → Yields (parser level) P) :
    Yields (deeper inner parser) P := by
  cases inner with
  | none => exact fun ts ↦ .error _
  | some level =>
    obtain ⟨r, hr, hlevel⟩ := hi level rfl
    exact h level r hr hlevel

/-! ### Operands and arguments -/

theorem yields_operand {expression : Parser Expr} {all : Nat}
    (h : Yields expression (Expr.Within room all)) :
    Yields (operand expression) (Expr.Within room all) := by
  have hleaf {e : Expr} (h : ∀ firsts, e.reach firsts = 0) : e.Within room all := by
    simp [Expr.Within, h]
  intro ts
  unfold operand
  split
  · unfold intLiteral
    dsimp only
    split
    · exact .ok (hleaf fun _ ↦ rfl)
    · exact .error _
  · exact .ok (hleaf fun _ ↦ rfl)
  · exact .ok (hleaf fun _ ↦ rfl)
  · exact .ok (hleaf fun _ ↦ rfl)
  · exact .ok (hleaf fun _ ↦ rfl)
  · exact .ok (hleaf fun _ ↦ rfl)
  · exact .ok (hleaf fun _ ↦ rfl)
  · exact .ok (hleaf fun _ ↦ rfl)
  · rename_i rest
    have hgroup : Gives (group expression rest) (Expr.Within room all) :=
      (h rest).bind fun e ts he ↦ (Gives.trivial _).bind fun _ _ _ ↦ .ok he
    split
    · rename_i r hr
      exact hr ▸ hgroup
    · split <;> exact .error _
  · exact .error _

theorem yields_moreArguments {expression : Parser Expr} {straight all : Nat}
    (h : Yields expression (Expr.Within straight all)) (fuel : Nat) :
    Yields (moreArguments expression fuel) (ArgsWithin straight all) := by
  have hnone : ArgsWithin straight all [] := ⟨Nat.zero_le _, Nat.zero_le _⟩
  induction fuel with
  | zero => exact fun ts ↦ .ok hnone
  | succ fuel ih =>
    intro ts
    rw [moreArguments]
    split
    · split
      · rename_i arg rest harg
        have ha := h _ arg rest harg
        refine (ih rest).bind fun args rest hargs ↦ .ok ?_
        exact ⟨Nat.max_le.2 ⟨ha.1, hargs.1⟩, Nat.max_le.2 ⟨ha.2, hargs.2⟩⟩
      · split
        · exact .error _
        · exact .ok hnone
    · exact .ok hnone

theorem yields_arguments {expression : Parser Expr} {straight all : Nat}
    (h : Yields expression (Expr.Within straight all)) :
    Yields (arguments expression) (ArgsWithin straight all) := by
  have hnone : ArgsWithin straight all [] := ⟨Nat.zero_le _, Nat.zero_le _⟩
  intro ts
  rw [arguments]
  split
  · rename_i arg rest harg
    have ha := h _ arg rest harg
    refine (yields_moreArguments h _ rest).bind fun args rest hargs ↦ .ok ?_
    exact ⟨Nat.max_le.2 ⟨ha.1, hargs.1⟩, Nat.max_le.2 ⟨ha.2, hargs.2⟩⟩
  · split
    · exact .error _
    · exact .ok hnone

/-! ### The parsers of a level -/

theorem yields_suffixesWith (hi : Inner inner room) (base : Expr) :
    Yields (suffixesWith inner base)
      (Expr.Within (max (base.reach false) room)
        (max (base.reach true) (room * room - room) + room)) := by
  intro ts
  rw [suffixesWith]
  split
  · -- the call takes one of the levels that are left here, however many `base` has taken
    refine yields_deeper hi (fun level r hr hlevel ts ↦ ?_) ts
    refine (yields_arguments hlevel.expression _).bind fun args ts hargs ↦ ?_
    refine (Gives.trivial _).bind fun close ts _ ↦ ?_
    refine (hlevel.suffixes _ ts).mono fun e he ↦ ?_
    have hsq := succ_sq r
    simp only [Expr.Within, ArgsWithin, Expr.reach, if_true, Bool.false_eq_true, if_false]
      at he hargs ⊢
    subst hr
    omega
  · split
    · refine yields_deeper hi (fun level r hr hlevel ts ↦ ?_) ts
      refine (Gives.trivial _).bind fun member ts _ ↦ ?_
      refine (hlevel.suffixes _ ts).mono fun e he ↦ ?_
      have hsq := succ_sq r
      simp only [Expr.Within, Expr.reach, if_true, Bool.false_eq_true, if_false] at he ⊢
      subst hr
      omega
    · refine .ok ⟨Nat.le_max_left _ _, ?_⟩
      omega

theorem yields_unaryWith (hi : Inner inner room) :
    Yields (unaryWith inner) (Expr.Within room (room * room)) := by
  intro ts
  rw [unaryWith]
  split
  · have hinner : Yields (deeper inner ExprLevel.unary)
        (fun e ↦ ∃ r, room = r + 1 ∧ e.Within r (r * r)) :=
      yields_deeper hi fun level r hr hlevel ts ↦ (hlevel.unary ts).mono fun e he ↦ ⟨r, hr, he⟩
    refine (hinner _).bind fun e ts he ↦ .ok ?_
    obtain ⟨r, rfl, hstraight, hall⟩ := he
    have hsq := succ_sq r
    simp only [Expr.Within, Expr.reach]
    omega
  · have hgroup : Yields (deeper inner fun level ↦ level.binary 0)
        (Expr.Within room (room * room - room)) := by
      refine yields_deeper hi fun level r hr hlevel ts ↦ (hlevel.binary 0 ts).mono fun e he ↦ ?_
      have hsq := succ_sq r
      subst hr
      simp only [Expr.Within] at he ⊢
      omega
    refine (yields_operand hgroup ts).bind fun base rest hbase ↦ ?_
    refine (yields_suffixesWith hi base rest).mono fun e he ↦ ?_
    have hsq := Nat.le_mul_self room
    simp only [Expr.Within] at hbase he ⊢
    omega

theorem yields_operatorsWith (hi : Inner inner room) (least : Nat) (left : Expr) :
    Yields (operatorsWith inner least left)
      (Expr.Within (max (left.reach false) room)
        (max (left.reach true) (room * room - room) + room)) := by
  intro ts
  have hleft : left.Within (max (left.reach false) room)
      (max (left.reach true) (room * room - room) + room) := by
    simp only [Expr.Within]
    omega
  rw [operatorsWith]
  split
  · exact .ok hleft
  · split
    · exact .ok hleft
    · refine yields_deeper hi (fun level r hr hlevel ts ↦ ?_) ts
      refine (hlevel.binary _ _).bind fun right ts hright ↦ ?_
      refine (hlevel.operators _ _ ts).mono fun e he ↦ ?_
      have hsq := succ_sq r
      have hle := Nat.le_mul_self r
      subst hr
      simp only [Expr.Within, Expr.reach, if_true, Bool.false_eq_true, if_false] at he hright ⊢
      omega

/-- **The bounds for a level follow from those for the next one.** -/
theorem bounded_above (hi : Inner inner room) : (above inner).Bounded room where
  expression := by
    refine yields_deeper hi fun level r hr hlevel ts ↦ (hlevel.binary 0 ts).mono fun e he ↦ ?_
    have hsq := succ_sq r
    subst hr
    simp only [Expr.Within] at he ⊢
    omega
  binary least := by
    intro ts
    refine (yields_unaryWith hi ts).bind fun left rest hleft ↦ ?_
    refine (yields_operatorsWith hi least left rest).mono fun e he ↦ ?_
    simp only [Expr.Within] at hleft he ⊢
    omega
  operators := yields_operatorsWith hi
  unary := yields_unaryWith hi
  suffixes := yields_suffixesWith hi

theorem bounded_ofRoom (room : Nat) : (ofRoom room).Bounded room := by
  induction room with
  | zero => exact bounded_above (by simp [Inner])
  | succ room ih =>
    refine bounded_above fun level hlevel ↦ ?_
    obtain rfl := Option.some.inj hlevel
    exact ⟨room, rfl, ih⟩

end ExprLevel

/-! ## Statements -/

/-- The greatest number that a path from a statement crosses, with `room` levels below its own. -/
def mostCrossed (room : Nat) : Nat := max room (room * room - room)

theorem mostCrossed_succ (r : Nat) : mostCrossed r + 1 ≤ mostCrossed (r + 1) := by
  have hsq := ExprLevel.succ_sq r
  unfold mostCrossed
  rcases Nat.eq_zero_or_pos r with rfl | hpos
  · decide
  · omega

/-- The paths from the statement cross as many nodes that nest as a level allows with `room` levels
below it. -/
def Stmt.Within (room : Nat) (s : Stmt) : Prop :=
  s.reach false ≤ room ∧ s.reach true ≤ mostCrossed room

/-- The same of paths from the statements in a block, the block included. -/
def BlockWithin (room : Nat) (body : List Stmt) : Prop :=
  reachBody false body + 1 ≤ room ∧ reachBody true body + 1 ≤ mostCrossed room

/-- The same of paths from what follows the block of a branch. -/
def Otherwise.Within (room : Nat) (o : Otherwise) : Prop :=
  o.reach false ≤ room ∧ o.reach true ≤ mostCrossed room

/-- The statement that a branch is on its own. -/
def Branch.stmt (b : Branch) : Stmt :=
  .branch b.condition b.block.body b.block.span b.otherwise b.span

theorem Expr.Within.most {room : Nat} {e : Expr} (h : e.Within room (room * room - room)) :
    e.reach false ≤ room ∧ e.reach true ≤ mostCrossed room :=
  ⟨h.1, Nat.le_trans h.2 (Nat.le_max_right _ _)⟩

namespace StmtLevel

/-- How deep the statements nest that the parsers of a level yield, with `room` levels below it. -/
structure Bounded (level : StmtLevel) (room : Nat) : Prop where
  exprs : level.exprs.Bounded room
  statement : Yields level.statement (Stmt.Within room)
  branch : Yields level.branch fun b ↦ b.stmt.Within room

/-- The level below, if there is one, has one level less below it. -/
def Inner (inner : Option StmtLevel) (room : Nat) : Prop :=
  ∀ level ∈ inner, ∃ r, room = r + 1 ∧ level.Bounded r

variable {exprs : ExprLevel} {inner : Option StmtLevel} {room : Nat}

theorem yields_deeper {α : Type} {parser : StmtLevel → Parser α} {P : α → Prop}
    (hi : Inner inner room)
    (h : ∀ level r, room = r + 1 → level.Bounded r → Yields (parser level) P) :
    Yields (deeper inner parser) P := by
  cases inner with
  | none => exact fun ts ↦ .error _
  | some level =>
    obtain ⟨r, hr, hlevel⟩ := hi level rfl
    exact h level r hr hlevel

/-! ### Simple statements -/

section Simple

variable (he : Yields exprs.expression (Expr.Within room (room * room - room)))
include he

theorem yields_untyped (start : Text.Span) :
    Yields (untyped exprs start) (Stmt.Within room) := by
  intro ts
  refine (Gives.trivial _).bind fun name ts _ ↦ (Gives.trivial _).bind fun _ ts _ ↦ ?_
  refine (he ts).bind fun init ts hinit ↦ (Gives.trivial _).bind fun _ ts _ ↦ ?_
  exact .ok hinit.most

theorem yields_typed (segments : List Name) (name : Name) :
    Yields (typed exprs segments name) (Stmt.Within room) := by
  intro ts
  rw [typed]
  split
  · refine (he _).bind fun init ts hinit ↦ ?_
    exact Gives.bind (r := takeEnd ts) (.trivial _) fun _ ts _ ↦ .ok hinit.most
  · exact Gives.bind (r := takeEnd ts) (.trivial _) fun _ ts _ ↦ .ok ⟨Nat.zero_le _, Nat.zero_le _⟩

theorem yields_giveBack (start : Text.Span) :
    Yields (giveBack exprs start) (Stmt.Within room) := by
  intro ts
  rw [giveBack]
  split
  · exact Gives.bind (r := takeEnd ts) (.trivial _) fun _ ts _ ↦ .ok ⟨Nat.zero_le _, Nat.zero_le _⟩
  · refine (he _).bind fun value ts hvalue ↦ ?_
    exact Gives.bind (r := takeEnd ts) (.trivial _) fun _ ts _ ↦ .ok hvalue.most

theorem yields_throwing (start : Text.Span) :
    Yields (throwing exprs start) (Stmt.Within room) := by
  intro ts
  refine (he ts).bind fun value ts hvalue ↦ (Gives.trivial _).bind fun _ ts _ ↦ ?_
  exact .ok hvalue.most

theorem yields_assignOrExpr : Yields (assignOrExpr exprs) (Stmt.Within room) := by
  intro ts
  refine (he ts).bind fun e ts hleft ↦ ?_
  dsimp only
  split
  · refine (he _).bind fun value ts hvalue ↦ (Gives.trivial _).bind fun _ ts _ ↦ .ok ?_
    exact ⟨Nat.max_le.2 ⟨hleft.most.1, hvalue.most.1⟩, Nat.max_le.2 ⟨hleft.most.2, hvalue.most.2⟩⟩
  · exact (Gives.trivial _).bind fun _ ts _ ↦ .ok hleft.most

theorem yields_condition :
    Yields (condition exprs) (Expr.Within room (room * room - room)) := by
  intro ts
  refine (Gives.trivial _).bind fun _ ts _ ↦ (he ts).bind fun e ts hcondition ↦ ?_
  exact (Gives.trivial _).bind fun _ ts _ ↦ .ok hcondition

end Simple

/-! ### Blocks and branches -/

theorem yields_statements {statement : Parser Stmt} (h : Yields statement (Stmt.Within room))
    (fuel : Nat) : Yields (statements statement fuel)
      fun body ↦ reachBody false body ≤ room ∧ reachBody true body ≤ mostCrossed room := by
  induction fuel with
  | zero => exact fun ts ↦ .ok ⟨Nat.zero_le _, Nat.zero_le _⟩
  | succ fuel ih =>
    intro ts
    rw [statements]
    split
    · exact .ok ⟨Nat.zero_le _, Nat.zero_le _⟩
    · refine (h ts).bind fun first ts hfirst ↦ (ih ts).bind fun more ts hmore ↦ .ok ?_
      exact ⟨Nat.max_le.2 ⟨hfirst.1, hmore.1⟩, Nat.max_le.2 ⟨hfirst.2, hmore.2⟩⟩

theorem yields_block (hi : Inner inner room) :
    Yields (block inner) fun b ↦ BlockWithin room b.body := by
  refine yields_deeper hi fun level r hr hlevel ts ↦ ?_
  refine (Gives.trivial _).bind fun opening ts _ ↦ ?_
  refine (yields_statements hlevel.statement _ ts).bind fun body ts hbody ↦ ?_
  refine (Gives.trivial _).bind fun close ts _ ↦ .ok ?_
  have := mostCrossed_succ r
  subst hr
  exact ⟨Nat.succ_le_succ hbody.1, Nat.le_trans (Nat.succ_le_succ hbody.2) this⟩

theorem yields_otherwise (hi : Inner inner room) :
    Yields (otherwise inner) (Otherwise.Within room) := by
  intro ts
  rw [otherwise]
  split
  · split
    · have hbranch : Yields (deeper inner StmtLevel.branch)
          (fun b ↦ ∃ r, room = r + 1 ∧ b.stmt.Within r) :=
        yields_deeper hi fun level r hr hlevel ts ↦
          (hlevel.branch ts).mono fun b hb ↦ ⟨r, hr, hb⟩
      refine (hbranch _).bind fun b ts hb ↦ .ok ?_
      obtain ⟨r, rfl, hstraight, hall⟩ := hb
      exact ⟨Nat.succ_le_succ hstraight,
        Nat.le_trans (Nat.succ_le_succ hall) (mostCrossed_succ r)⟩
    · exact (yields_block hi _).bind fun b ts hb ↦ .ok hb
  · exact .ok ⟨Nat.zero_le _, Nat.zero_le _⟩

theorem yields_branchWith
    (he : Yields exprs.expression (Expr.Within room (room * room - room)))
    (hi : Inner inner room) :
    Yields (branchWith exprs inner) fun b ↦ b.stmt.Within room := by
  intro ts
  refine (yields_condition he _).bind fun c ts hc ↦ ?_
  refine (yields_block hi ts).bind fun body ts hbody ↦ ?_
  refine (yields_otherwise hi ts).bind fun o ts ho ↦ .ok ?_
  exact ⟨Nat.max_le.2 ⟨hc.most.1, Nat.max_le.2 ⟨hbody.1, ho.1⟩⟩,
    Nat.max_le.2 ⟨hc.most.2, Nat.max_le.2 ⟨hbody.2, ho.2⟩⟩⟩

theorem yields_loop (he : Yields exprs.expression (Expr.Within room (room * room - room)))
    (hi : Inner inner room) (start : Text.Span) :
    Yields (loop exprs inner start) (Stmt.Within room) := by
  intro ts
  refine (yields_condition he ts).bind fun c ts hc ↦ ?_
  refine (yields_block hi ts).bind fun body ts hbody ↦ .ok ?_
  exact ⟨Nat.max_le.2 ⟨hc.most.1, hbody.1⟩, Nat.max_le.2 ⟨hc.most.2, hbody.2⟩⟩

/-! ### The parsers of a level -/

theorem yields_statementWith
    (he : Yields exprs.expression (Expr.Within room (room * room - room)))
    (hi : Inner inner room) : Yields (statementWith exprs inner) (Stmt.Within room) := by
  intro ts
  rw [statementWith]
  dsimp only
  split
  · exact yields_untyped he _ _
  · exact yields_giveBack he _ _
  · exact yields_throwing he _ _
  · exact (yields_branchWith he hi ts).bind fun b ts hb ↦ .ok hb
  · exact yields_loop he hi _ _
  · exact (yields_block hi ts).bind fun b ts hb ↦ .ok hb
  · exact .error _
  · exact .error _
  · split
    · exact yields_typed he _ _ _
    · exact yields_assignOrExpr he ts

/-- **The bounds for a level follow from those for the next one.** -/
theorem bounded_above (hi : Inner inner room) : (above inner).Bounded room := by
  have hexprs : (above inner).exprs.Bounded room := by
    refine ExprLevel.bounded_above fun level hlevel ↦ ?_
    obtain ⟨below, hbelow, rfl⟩ := Option.map_eq_some_iff.1 hlevel
    obtain ⟨r, hr, hbounded⟩ := hi below hbelow
    exact ⟨r, hr, hbounded.exprs⟩
  exact {
    exprs := hexprs
    statement := yields_statementWith hexprs.expression hi
    branch := yields_branchWith hexprs.expression hi }

theorem bounded_ofRoom (room : Nat) : (ofRoom room).Bounded room := by
  induction room with
  | zero => exact bounded_above (by simp [Inner])
  | succ room ih =>
    refine bounded_above fun level hlevel ↦ ?_
    obtain rfl := Option.some.inj hlevel
    exact ⟨room, rfl, ih⟩

end StmtLevel

/-! ## Bodies -/

theorem within_of_parseStatements (fuel : Nat) (ts : List Token) :
    ∀ s ∈ (parseStatements fuel ts).statements, s.Within maxNesting := by
  induction fuel generalizing ts with
  | zero => simp [parseStatements]
  | succ fuel ih =>
    intro s hs
    rw [parseStatements] at hs
    split at hs
    · simp at hs
    · split at hs
      · rename_i first rest hfirst
        rcases List.mem_cons.1 hs with rfl | hs
        · exact (StmtLevel.bounded_ofRoom maxNesting).statement ts s rest hfirst
        · exact ih rest s hs
      · exact ih _ s hs

/-- **How deep parsed bodies nest.**  A path from a statement of a body crosses at most `maxNesting`
nodes if it enters no first operand, and `maxNesting * (maxNesting - 1)` in any case.  So all paths
keep to `maxNesting` exactly if those into first operands do. -/
theorem nesting_of_parse (source : String) :
    (∀ s ∈ (parse source).statements, (∀ n, s.Crosses false n → n ≤ maxNesting) ∧
      ∀ b n, s.Crosses b n → n ≤ maxNesting * (maxNesting - 1)) ∧
    ((∀ s ∈ (parse source).statements, ∀ b n, s.Crosses b n → n ≤ maxNesting) ↔
      ∀ s ∈ (parse source).statements, ∀ n, s.Crosses true n → n ≤ maxNesting) := by
  have hwithin : ∀ s ∈ (parse source).statements, s.Within maxNesting :=
    within_of_parseStatements _ _
  have hstraight : ∀ s ∈ (parse source).statements, ∀ n, s.Crosses false n → n ≤ maxNesting := by
    intro s hs n h
    exact Nat.le_trans (s.le_reach (id : Counts false false) h) (hwithin s hs).1
  refine ⟨fun s hs ↦ ⟨hstraight s hs, fun b n h ↦ ?_⟩, fun h s hs n ↦ h s hs true n, ?_⟩
  · exact Nat.le_trans (s.le_reach (fun _ ↦ rfl) h) (hwithin s hs).2
  · intro hfirsts s hs b n h
    cases b with
    | false => exact hstraight s hs n h
    | true => exact hfirsts s hs n h

/-- A sum whose first operand has as many signs as there are levels for it.  These levels are given
back at its end, and the two operators around it take levels of their own. -/
def deepText : String := "return " ++ String.ofList (List.replicate 255 '-') ++ "x+x+x"

/-- The text is parsed, and its tree nests deeper than there are levels. -/
theorem deepText_crosses : (parse deepText).errors = [] ∧
    ∃ s ∈ (parse deepText).statements, ∃ b n, s.Crosses b n ∧ maxNesting < n := by
  obtain ⟨herrors, hreach⟩ : (parse deepText).errors = [] ∧
      (parse deepText).statements.map (Stmt.reach true) = [257] := by decide +kernel
  obtain ⟨s, hs, hn⟩ := List.mem_map.1 (hreach ▸ List.mem_singleton.2 rfl :
    257 ∈ (parse deepText).statements.map (Stmt.reach true))
  obtain ⟨b, h⟩ := s.crosses_reach
  exact ⟨herrors, s, hs, b, _, h, hn ▸ by decide⟩

end Dossier.Script
