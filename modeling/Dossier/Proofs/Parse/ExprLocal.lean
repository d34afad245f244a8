import Dossier.Proofs.Parse.ExprSound

/-!
# Expressions do not look beyond statements

A semicolon and the braces are no part of an expression, so that the parsers of expressions never take
one, nor look behind it: what stands there is left as it is.

* `Extends r P x y` says that the outcome `y` is the outcome `x` with the tokens `r` behind those that
  are left.
* A predicate on tokens is `Fenced` if it holds of none that lack a fence, and goes on to hold until
  the fence is reached.  `Ignores` states that a parser does not look behind the fence, for every such
  predicate, so that whatever is known of tokens in front of it is known of those that are left.
* `ExprLevel.local_ofRoom` is the result, by one lemma for each parser.
-/

set_option autoImplicit false

namespace Dossier.Script

open Text (Span)

/-! ## Outcomes with more tokens behind them -/

/-- The second outcome is the first one with `r` behind the tokens that are left, of which the
predicate holds. -/
inductive Extends {α : Type} (r : List Token) (P : List Token → Prop) :
    Except Obstacle (α × List Token) → Except Obstacle (α × List Token) → Prop
  | ok (a : α) {rest : List Token} : P rest → Extends r P (.ok (a, rest)) (.ok (a, rest ++ r))
  | error (o : Obstacle) : Extends r P (.error o) (.error o)

namespace Extends

variable {α β : Type} {r : List Token} {P Q : List Token → Prop}
variable {x y : Except Obstacle (α × List Token)}

protected theorem bind {f g : α × List Token → Except Obstacle (β × List Token)}
    (h : Extends r P x y) (hf : ∀ a rest, P rest → Extends r Q (f (a, rest)) (g (a, rest ++ r))) :
    Extends r Q (x >>= f) (y >>= g) := by
  cases h with
  | ok a hrest => exact hf a _ hrest
  | error o => exact .error o

/-- Both outcomes of a choice. -/
protected theorem ite {c : Prop} [Decidable c] {x' y' : Except Obstacle (α × List Token)}
    (ht : c → Extends r P x y) (hf : ¬ c → Extends r P x' y') :
    Extends r P (if c then x else x') (if c then y else y') := by
  by_cases hc : c
  · rw [if_pos hc, if_pos hc]
    exact ht hc
  · rw [if_neg hc, if_neg hc]
    exact hf hc

end Extends

/-! ## Fences -/

/-- Is this a semicolon or a brace? -/
def Token.isFence (t : Token) : Bool :=
  match t.kind with
  | .symbol .semicolon | .symbol .openBrace | .symbol .closeBrace => true
  | _ => false

/-- Tokens of which the predicate holds have a fence, and it goes on to hold up to there. -/
structure Fenced (P : List Token → Prop) : Prop where
  ne_nil : ∀ {ts}, P ts → ts ≠ []
  tail : ∀ {t ts}, P (t :: ts) → t.isFence = false → P ts

namespace Fenced

variable {P : List Token → Prop} {ts : List Token}

/-- The same holds of tokens that are no more than so many. -/
theorem and_length (h : Fenced P) (n : Nat) : Fenced fun ts ↦ P ts ∧ ts.length ≤ n where
  ne_nil hts := h.ne_nil hts.1
  tail hts ht := ⟨h.tail hts.1 ht, Nat.le_of_succ_le hts.2⟩

theorem drop_one (h : Fenced P) (hts : P ts) {kind : TokenKind} (hkind : (current ts).kind = kind)
    (hfence : (⟨kind, (current ts).span⟩ : Token).isFence = false) : P (ts.drop 1) := by
  subst hkind
  cases ts with
  | nil => exact absurd rfl (h.ne_nil hts)
  | cons t ts => exact h.tail hts hfence

end Fenced

section Append

variable {ts : List Token} (h : ts ≠ []) (us : List Token)
include h

theorem atSymbol_append (mark : Symbol) : atSymbol mark (ts ++ us) = atSymbol mark ts := by
  rw [atSymbol, current_append h, atSymbol]

theorem atEnd_append : atEnd (ts ++ us) = atEnd ts := by
  rw [atEnd, current_append h, atEnd]

theorem drop_one_append : (ts ++ us).drop 1 = ts.drop 1 ++ us := by
  cases ts with
  | nil => exact absurd rfl h
  | cons t ts => rfl

end Append

/-- What stands behind the fence makes no difference to the parser, and it stops in front of it. -/
def Ignores {α : Type} (r : List Token) (parser : Parser α) : Prop :=
  ∀ P, Fenced P → ∀ ts, P ts → Extends r P (parser ts) (parser (ts ++ r))

section Ignores

variable {α : Type} {r : List Token} {P : List Token → Prop} {ts : List Token}

theorem extends_complain (complaint : Complaint) (h : ts ≠ []) :
    Extends r P (complain complaint ts : Except Obstacle (α × List Token))
      (complain complaint (ts ++ r)) := by
  rw [complain, complain, current_append h]
  exact .error _

theorem ignores_takeSymbol {mark : Symbol}
    (hmark : ∀ span, (⟨.symbol mark, span⟩ : Token).isFence = false) :
    Ignores r (takeSymbol mark) := by
  intro P hP ts hts
  have hne := hP.ne_nil hts
  rw [takeSymbol, takeSymbol, atSymbol_append hne, current_append hne, drop_one_append hne]
  refine .ite (fun hat ↦ .ok _ ?_) fun _ ↦ extends_complain _ hne
  exact hP.drop_one hts (beq_iff_eq.1 hat) (hmark _)

theorem ignores_takeName : Ignores r takeName := by
  intro P hP ts hts
  obtain ⟨⟨kind, span⟩, us, rfl⟩ := List.exists_cons_of_ne_nil (hP.ne_nil hts)
  cases kind with
  | name text => exact .ok _ (hP.tail hts rfl)
  | _ => exact .error _

end Ignores

namespace ExprLevel

/-- The parsers of a level do not look behind fences. -/
structure Local (r : List Token) (level : ExprLevel) : Prop where
  expression : Ignores r level.expression
  binary : ∀ least, Ignores r (level.binary least)
  operators : ∀ least left, Ignores r (level.operators least left)
  unary : Ignores r level.unary
  suffixes : ∀ base, Ignores r (level.suffixes base)

/-- Neither do those of the level below, if there is one. -/
def LocalBelow (r : List Token) (inner : Option ExprLevel) : Prop := ∀ level ∈ inner, level.Local r

variable {r : List Token} {inner : Option ExprLevel} {P Q : List Token → Prop}

theorem extends_deeper {α : Type} {parser : ExprLevel → Parser α} (hi : LocalBelow r inner)
    {ts : List Token} (hne : ts ≠ [])
    (h : ∀ level : ExprLevel, level.Local r →
      Extends r P (parser level ts) (parser level (ts ++ r))) :
    Extends r P (deeper inner parser ts) (deeper inner parser (ts ++ r)) := by
  cases inner with
  | none => exact extends_complain .tooComplex hne
  | some level => exact h level (hi level rfl)

/-! ## Operands and arguments -/

section Expression

variable {expression : Parser Expr} (he : Ignores r expression)
include he

theorem ignores_group : Ignores r (group expression) := by
  intro P hP ts hts
  refine (he P hP ts hts).bind fun e ts hts ↦ ?_
  exact (ignores_takeSymbol (fun _ ↦ rfl) P hP ts hts).bind fun _ ts hts ↦ .ok e hts

theorem ignores_operand : Ignores r (operand expression) := by
  intro P hP ts hts
  obtain ⟨⟨kind, span⟩, us, rfl⟩ := List.exists_cons_of_ne_nil (hP.ne_nil hts)
  have htail : (⟨kind, span⟩ : Token).isFence = false → P us := hP.tail hts
  cases kind with
  | int digits =>
    simp only [operand, intLiteral, List.cons_append]
    exact .ite (fun _ ↦ .ok _ (htail rfl)) fun _ ↦ .error _
  | float | string | name => exact .ok _ (htail rfl)
  | keyword word => cases word <;> first | exact .ok _ (htail rfl) | exact .error _
  | invalid | done => exact .error _
  | symbol mark =>
    cases mark with
    | openParen =>
      have hgroup := ignores_group he P hP us (htail rfl)
      simp only [operand, List.cons_append]
      generalize group expression us = x at hgroup ⊢
      generalize group expression (us ++ r) = y at hgroup ⊢
      cases hgroup with
      | ok a hrest => exact .ok a hrest
      | error o => exact .ite (fun _ ↦ .error _) fun _ ↦ .error _
    | _ => exact .error _

/-- More arguments end at the same token, whatever stands behind them: the fuel does not run out. -/
theorem extends_moreArguments (hP : Fenced P) {fuel fuel' : Nat} {ts : List Token} (hts : P ts)
    (hfuel : ts.length ≤ fuel) (hfuel' : ts.length ≤ fuel') :
    Extends r P (moreArguments expression fuel ts) (moreArguments expression fuel' (ts ++ r)) := by
  induction fuel generalizing fuel' ts with
  | zero => exact absurd (List.length_eq_zero_iff.1 (Nat.le_zero.1 hfuel)) (hP.ne_nil hts)
  | succ fuel ih =>
    have hne := hP.ne_nil hts
    cases fuel' with
    | zero => exact absurd (List.length_eq_zero_iff.1 (Nat.le_zero.1 hfuel')) hne
    | succ fuel' =>
      rw [moreArguments, moreArguments, atSymbol_append hne, drop_one_append hne]
      refine .ite (fun hcomma ↦ ?_) fun _ ↦ .ok _ hts
      have hdrop := hP.drop_one hts (beq_iff_eq.1 hcomma) rfl
      have hlength : (ts.drop 1).length + 1 ≤ ts.length := by
        have := List.length_pos_of_ne_nil hne
        rw [List.length_drop]
        omega
      have harg := he _ (hP.and_length (ts.drop 1).length) _ ⟨hdrop, Nat.le_refl _⟩
      generalize expression (ts.drop 1) = x at harg ⊢
      generalize expression (ts.drop 1 ++ r) = y at harg ⊢
      cases harg with
      | ok arg hrest =>
        have hmore := @ih fuel' _ hrest.1 (by omega) (by omega)
        exact hmore.bind fun args rest hrest ↦ .ok _ hrest
      | error o => exact .ite (fun _ ↦ .error _) fun _ ↦ .ok _ hts

theorem ignores_arguments : Ignores r (arguments expression) := by
  intro P hP ts hts
  have harg := he P hP ts hts
  rw [arguments, arguments]
  generalize expression ts = x at harg ⊢
  generalize expression (ts ++ r) = y at harg ⊢
  cases harg with
  | @ok arg rest hrest =>
    have hlength : rest.length ≤ (rest ++ r).length := by simp
    have hmore := extends_moreArguments he hP hrest (Nat.le_refl _) hlength
    exact hmore.bind fun args rest hrest ↦ .ok _ hrest
  | error o => exact .ite (fun _ ↦ .error _) fun _ ↦ .ok _ hts

end Expression

/-! ## The parsers of a level -/

theorem ignores_expression (hi : LocalBelow r inner) :
    Ignores r (deeper inner fun level ↦ level.binary 0) := fun P hP ts hts ↦
  extends_deeper hi (hP.ne_nil hts) fun _ hlevel ↦ hlevel.binary 0 P hP ts hts

theorem ignores_suffixesWith (hi : LocalBelow r inner) (base : Expr) :
    Ignores r (suffixesWith inner base) := by
  intro P hP ts hts
  have hne := hP.ne_nil hts
  rw [suffixesWith, suffixesWith, atSymbol_append hne, atSymbol_append hne]
  refine .ite (fun hopen ↦ ?_) fun _ ↦ .ite (fun hdot ↦ ?_) fun _ ↦ .ok _ hts
  · refine extends_deeper hi hne fun level hlevel ↦ ?_
    have hdrop := hP.drop_one hts (beq_iff_eq.1 hopen) rfl
    rw [drop_one_append hne]
    refine (ignores_arguments hlevel.expression P hP _ hdrop).bind fun args us hus ↦ ?_
    refine (ignores_takeSymbol (fun _ ↦ rfl) P hP us hus).bind fun close vs hvs ↦ ?_
    exact hlevel.suffixes _ P hP vs hvs
  · refine extends_deeper hi hne fun level hlevel ↦ ?_
    have hdrop := hP.drop_one hts (beq_iff_eq.1 hdot) rfl
    rw [drop_one_append hne]
    refine (ignores_takeName P hP _ hdrop).bind fun m us hus ↦ ?_
    exact hlevel.suffixes _ P hP us hus

theorem ignores_unaryWith (hi : LocalBelow r inner) : Ignores r (unaryWith inner) := by
  intro P hP ts hts
  have hne := hP.ne_nil hts
  rw [unaryWith, unaryWith, current_append hne]
  split
  · rename_i op hop
    have hdrop : P (ts.drop 1) :=
      hP.drop_one hts (kind_of_unaryOp? hop) (by cases op <;> rfl)
    rw [drop_one_append hne]
    refine Extends.bind (P := P) ?_ fun operand us hus ↦ .ok _ hus
    exact extends_deeper hi (hP.ne_nil hdrop) fun level hlevel ↦ hlevel.unary P hP _ hdrop
  · refine (ignores_operand (ignores_expression hi) P hP ts hts).bind fun base us hus ↦ ?_
    exact ignores_suffixesWith hi base P hP us hus

theorem ignores_operatorsWith (hi : LocalBelow r inner) (least : Nat) (left : Expr) :
    Ignores r (operatorsWith inner least left) := by
  intro P hP ts hts
  have hne := hP.ne_nil hts
  rw [operatorsWith, operatorsWith, current_append hne]
  split
  · exact .ok _ hts
  · rename_i op hop
    refine .ite (fun _ ↦ .ok _ hts) fun _ ↦ ?_
    refine extends_deeper hi hne fun level hlevel ↦ ?_
    have hdrop : P (ts.drop 1) :=
      hP.drop_one hts (kind_of_binaryOp? hop) (by cases op <;> rfl)
    rw [drop_one_append hne]
    refine (hlevel.binary _ P hP _ hdrop).bind fun right us hus ↦ ?_
    exact hlevel.operators _ _ P hP us hus

/-- **A level does not look behind fences if the next one does not.** -/
theorem local_above (hi : LocalBelow r inner) : (above inner).Local r where
  expression := ignores_expression hi
  binary least P hP ts hts := (ignores_unaryWith hi P hP ts hts).bind fun left us hus ↦
    ignores_operatorsWith hi least left P hP us hus
  operators := ignores_operatorsWith hi
  unary := ignores_unaryWith hi
  suffixes := ignores_suffixesWith hi

/-- **No level looks behind fences.** -/
theorem local_ofRoom (r : List Token) (room : Nat) : (ofRoom room).Local r := by
  induction room with
  | zero => exact local_above (by simp [LocalBelow])
  | succ room ih =>
    refine local_above fun level hlevel ↦ ?_
    obtain rfl := Option.some.inj hlevel
    exact ih

end ExprLevel

end Dossier.Script
