import Dossier.Proofs.Text.Places
import Dossier.Script.Parse.Expr

/-!
# Where expressions stand

A parser speaks of places: those in the tree that it yields, and that of the token which stands in its
way.  All of them are put together from places of its tokens, so that they fit the text if the tokens
do.

* `Expr.Fits` says that all places in a tree fit a text, and `TokensFit` that the tokens do.
* `Within` says of an outcome that its places fit, and `StaysWithin` of a parser that all its outcomes
  are such, whatever tokens that fit it is given.
* `ExprLevel.placed_ofRoom` is the result, by one lemma for each parser.
-/

set_option autoImplicit false

namespace Dossier.Script

open Text (Span)

/-! ## Places of trees -/

mutual

/-- All places in the expression fit the text. -/
def Expr.Fits (text : List Char) : Expr → Prop
  | .literal _ s => s.Fits text
  | .name n => n.span.Fits text
  | .self s => s.Fits text
  | .unary _ e s => e.Fits text ∧ s.Fits text
  | .binary _ l r s => l.Fits text ∧ r.Fits text ∧ s.Fits text
  | .member e m s => e.Fits text ∧ m.span.Fits text ∧ s.Fits text
  | .call e args s => e.Fits text ∧ ArgsFit text args ∧ s.Fits text

/-- All places in the arguments fit the text. -/
def ArgsFit (text : List Char) : List Expr → Prop
  | [] => True
  | arg :: args => arg.Fits text ∧ ArgsFit text args

end

variable {text : List Char}

namespace Expr.Fits

variable {e l r : Expr} {args : List Expr} {s : Span}

theorem span (h : e.Fits text) : e.span.Fits text := by
  cases e with
  | literal | name | self => exact h
  | unary => exact h.2
  | binary | member | call => exact h.2.2

/-! The parsers cover the parts of a tree with its place. -/

theorem unary (op : UnaryOp) (hs : s.Fits text) (h : e.Fits text) :
    (Expr.unary op e (s.cover e.span)).Fits text := ⟨h, hs.cover h.span⟩

theorem binary (op : BinaryOp) (hl : l.Fits text) (hr : r.Fits text) :
    (Expr.binary op l r (l.span.cover r.span)).Fits text := ⟨hl, hr, hl.span.cover hr.span⟩

theorem member {m : Name} (h : e.Fits text) (hm : m.span.Fits text) :
    (Expr.member e m (e.span.cover m.span)).Fits text := ⟨h, hm, h.span.cover hm⟩

theorem call (h : e.Fits text) (hargs : ArgsFit text args) (hs : s.Fits text) :
    (Expr.call e args (e.span.cover s)).Fits text := ⟨h, hargs, h.span.cover hs⟩

end Expr.Fits

/-- A place that covers names fits if their places do. -/
theorem fits_foldl {names : List Name} {s : Span} (hs : s.Fits text)
    (h : ∀ n ∈ names, n.span.Fits text) :
    (names.foldl (fun s n ↦ s.cover n.span) s).Fits text := by
  induction names generalizing s with
  | nil => exact hs
  | cons n names ih =>
    obtain ⟨hn, hnames⟩ := List.forall_mem_cons.1 h
    exact ih (hs.cover hn) hnames

/-! ## Tokens that fit -/

/-- The tokens stand in the text. -/
def TokensFit (text : List Char) (ts : List Token) : Prop := ∀ t ∈ ts, t.span.Fits text

namespace TokensFit

variable {ts us : List Token}

theorem of_suffix (h : TokensFit text ts) (hus : us <:+ ts) : TokensFit text us :=
  fun t ht ↦ h t (hus.subset ht)

theorem drop_one (h : TokensFit text ts) : TokensFit text (ts.drop 1) :=
  h.of_suffix (List.drop_suffix 1 ts)

theorem head {t : Token} (h : TokensFit text (t :: ts)) : t.span.Fits text :=
  h t (List.mem_cons_self ..)

theorem tail {t : Token} (h : TokensFit text (t :: ts)) : TokensFit text ts := h.drop_one

/-- Behind the last token the place is that of the start. -/
theorem current (h : TokensFit text ts) : (current ts).span.Fits text := by
  cases ts with
  | nil => exact .zero text
  | cons t ts => exact h.head

end TokensFit

/-! ## Outcomes that fit -/

/-- The places of an outcome fit the text: what was read has the property, and the tokens that are left
fit; or the token that was found does. -/
inductive Within {α : Type} (text : List Char) (Q : α → Prop) :
    Except Obstacle (α × List Token) → Prop
  | ok {a : α} {rest : List Token} : Q a → TokensFit text rest → Within text Q (.ok (a, rest))
  | error {o : Obstacle} : o.found.span.Fits text → Within text Q (.error o)

protected theorem Within.bind {α β : Type} {Q : α → Prop} {R : β → Prop}
    {x : Except Obstacle (α × List Token)} {f : α × List Token → Except Obstacle (β × List Token)}
    (h : Within text Q x)
    (hf : ∀ a rest, Q a → TokensFit text rest → Within text R (f (a, rest))) :
    Within text R (x >>= f) := by
  cases h with
  | ok ha hrest => exact hf _ _ ha hrest
  | error ho => exact .error ho

/-- From tokens that fit, the parser reads what has the property. -/
def StaysWithin {α : Type} (text : List Char) (Q : α → Prop) (parser : Parser α) : Prop :=
  ∀ ts, TokensFit text ts → Within text Q (parser ts)

theorem within_complain {α : Type} {Q : α → Prop} (complaint : Complaint) :
    StaysWithin text Q (complain complaint) := fun _ hts ↦ .error hts.current

theorem within_takeSymbol (mark : Symbol) :
    StaysWithin text (fun t ↦ t.span.Fits text) (takeSymbol mark) := by
  intro ts hts
  rw [takeSymbol]
  split
  · exact .ok hts.current hts.drop_one
  · exact within_complain _ ts hts

theorem within_takeName : StaysWithin text (fun n ↦ n.span.Fits text) takeName := by
  intro ts hts
  unfold takeName
  split
  · exact .ok hts.head hts.tail
  · exact within_complain _ _ hts

namespace ExprLevel

/-- The places that the parsers of a level speak of fit the text. -/
structure Placed (text : List Char) (level : ExprLevel) : Prop where
  expression : StaysWithin text (Expr.Fits text) level.expression
  binary : ∀ least, StaysWithin text (Expr.Fits text) (level.binary least)
  operators : ∀ least {left}, left.Fits text →
    StaysWithin text (Expr.Fits text) (level.operators least left)
  unary : StaysWithin text (Expr.Fits text) level.unary
  suffixes : ∀ {base}, base.Fits text → StaysWithin text (Expr.Fits text) (level.suffixes base)

/-- So do those of the level below, if there is one. -/
def PlacedBelow (text : List Char) (inner : Option ExprLevel) : Prop :=
  ∀ level ∈ inner, level.Placed text

variable {inner : Option ExprLevel}

theorem within_deeper {α : Type} {Q : α → Prop} {parser : ExprLevel → Parser α}
    (hi : PlacedBelow text inner)
    (h : ∀ level : ExprLevel, level.Placed text → StaysWithin text Q (parser level)) :
    StaysWithin text Q (deeper inner parser) := by
  cases inner with
  | none => exact within_complain .tooComplex
  | some level => exact h level (hi level rfl)

/-! ## Operands and arguments -/

section Expression

variable {expression : Parser Expr} (he : StaysWithin text (Expr.Fits text) expression)
include he

theorem within_group : StaysWithin text (Expr.Fits text) (group expression) := by
  intro ts hts
  refine (he ts hts).bind fun inner us hinner hus ↦ ?_
  exact (within_takeSymbol _ us hus).bind fun _ vs _ hvs ↦ .ok hinner hvs

theorem within_operand : StaysWithin text (Expr.Fits text) (operand expression) := by
  intro ts hts
  unfold operand
  split
  · rw [intLiteral]
    split
    · exact .ok hts.head hts.tail
    · exact within_complain _ _ hts
  iterate 7 exact .ok hts.head hts.tail
  · rename_i opening rest
    have hgroup := within_group he rest hts.tail
    generalize group expression rest = x at hgroup ⊢
    cases hgroup with
    | ok ha hrest => exact .ok ha hrest
    | error ho =>
      dsimp only
      split
      · exact .error ho
      · exact within_complain _ _ hts
  · exact within_complain _ _ hts

theorem within_moreArguments (fuel : Nat) :
    StaysWithin text (ArgsFit text) (moreArguments expression fuel) := by
  induction fuel with
  | zero => exact fun ts hts ↦ .ok trivial hts
  | succ fuel ih =>
    intro ts hts
    rw [moreArguments]
    split
    · have harg := he _ hts.drop_one
      generalize expression (ts.drop 1) = x at harg ⊢
      cases harg with
      | ok ha hrest => exact (ih _ hrest).bind fun args us hargs hus ↦ .ok ⟨ha, hargs⟩ hus
      | error ho =>
        dsimp only
        split
        · exact .error ho
        · exact .ok trivial hts
    · exact .ok trivial hts

theorem within_arguments : StaysWithin text (ArgsFit text) (arguments expression) := by
  intro ts hts
  rw [arguments]
  have harg := he ts hts
  generalize expression ts = x at harg ⊢
  cases harg with
  | ok ha hrest =>
    exact (within_moreArguments he _ _ hrest).bind fun args us hargs hus ↦ .ok ⟨ha, hargs⟩ hus
  | error ho =>
    dsimp only
    split
    · exact .error ho
    · exact .ok trivial hts

end Expression

/-! ## The parsers of a level -/

section Level

variable (hi : PlacedBelow text inner)
include hi

theorem within_expression :
    StaysWithin text (Expr.Fits text) (deeper inner fun level ↦ level.binary 0) :=
  within_deeper hi fun _ hlevel ↦ hlevel.binary 0

theorem within_suffixesWith {base : Expr} (hbase : base.Fits text) :
    StaysWithin text (Expr.Fits text) (suffixesWith inner base) := by
  intro ts hts
  rw [suffixesWith]
  split
  · refine within_deeper hi (fun level hlevel ts hts ↦ ?_) ts hts
    refine (within_arguments hlevel.expression _ hts.drop_one).bind fun args us hargs hus ↦ ?_
    refine (within_takeSymbol _ us hus).bind fun close vs hclose hvs ↦ ?_
    exact hlevel.suffixes (hbase.call hargs hclose) vs hvs
  · split
    · refine within_deeper hi (fun level hlevel ts hts ↦ ?_) ts hts
      refine (within_takeName _ hts.drop_one).bind fun m us hm hus ↦ ?_
      exact hlevel.suffixes (hbase.member hm) us hus
    · exact .ok hbase hts

theorem within_unaryWith : StaysWithin text (Expr.Fits text) (unaryWith inner) := by
  intro ts hts
  rw [unaryWith]
  split
  · refine Within.bind (within_deeper hi (fun _ hlevel ↦ hlevel.unary) _ hts.drop_one)
      fun operand us hoperand hus ↦ ?_
    exact .ok (.unary _ hts.current hoperand) hus
  · refine (within_operand (within_expression hi) ts hts).bind fun base us hbase hus ↦ ?_
    exact within_suffixesWith hi hbase us hus

theorem within_operatorsWith (least : Nat) {left : Expr} (hleft : left.Fits text) :
    StaysWithin text (Expr.Fits text) (operatorsWith inner least left) := by
  intro ts hts
  rw [operatorsWith]
  split
  · exact .ok hleft hts
  · split
    · exact .ok hleft hts
    · refine within_deeper hi (fun level hlevel ts hts ↦ ?_) ts hts
      refine (hlevel.binary _ _ hts.drop_one).bind fun right us hright hus ↦ ?_
      exact hlevel.operators least (hleft.binary _ hright) us hus

/-- **The places of a level fit if those of the next one do.** -/
theorem placed_above : (above inner).Placed text where
  expression := within_expression hi
  binary least ts hts := (within_unaryWith hi ts hts).bind fun _ us hleft hus ↦
    within_operatorsWith hi least hleft us hus
  operators := within_operatorsWith hi
  unary := within_unaryWith hi
  suffixes := within_suffixesWith hi

end Level

/-- **The places of all levels fit.** -/
theorem placed_ofRoom (text : List Char) (room : Nat) : (ofRoom room).Placed text := by
  induction room with
  | zero => exact placed_above (by simp [PlacedBelow])
  | succ room ih =>
    refine placed_above fun level hlevel ↦ ?_
    obtain rfl := Option.some.inj hlevel
    exact ih

end ExprLevel

end Dossier.Script
