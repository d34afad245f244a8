import Dossier.Script.Parse.Expr

/-!
# Expressions without their places

What is parsed depends on the kinds of the tokens and not on where they stand: tokens of the same kinds
are parsed as trees that differ in their places only, or refused for the same reason.

* `Expr.bare` is a tree whose parts all stand nowhere.
* `SameOutcome f x y` says of two outcomes that both are results of which `f` makes the same, with
  tokens of the same kinds left, or that both are the same complaint.
* `ParsesAlike f p q` says this of two parsers on tokens of the same kinds.  They may differ in the
  tree that was parsed before, which is how the operators and suffixes of a level go on from an operand.
* `ExprLevel.blind_ofRoom` is the result, by one lemma for each parser.
-/

set_option autoImplicit false

namespace Dossier.Script

open Text (Span)

/-! ## Trees without places -/

/-- The place of all that has lost its own. -/
def nowhere : Span := ⟨0, 0⟩

/-- The name without its place. -/
def Name.bare (n : Name) : Name := ⟨n.text, nowhere⟩

mutual

/-- The expression without the places of its parts. -/
def Expr.bare : Expr → Expr
  | .literal l _ => .literal l nowhere
  | .name n => .name n.bare
  | .self _ => .self nowhere
  | .unary op operand _ => .unary op operand.bare nowhere
  | .binary op left right _ => .binary op left.bare right.bare nowhere
  | .member base member _ => .member base.bare member.bare nowhere
  | .call callee args _ => .call callee.bare (bareArgs args) nowhere

/-- The arguments without the places of their parts. -/
def bareArgs : List Expr → List Expr
  | [] => []
  | e :: es => e.bare :: bareArgs es

end

/-! ## Tokens of the same kinds -/

/-- The tokens have the same kinds, in order. -/
def SameKinds (ts us : List Token) : Prop := ts.map Token.kind = us.map Token.kind

namespace SameKinds

variable {ts us : List Token} (h : SameKinds ts us)

include h

protected theorem symm : SameKinds us ts := Eq.symm h

theorem length_eq : ts.length = us.length := by
  simpa using congrArg List.length h

theorem kind_current : (current ts).kind = (current us).kind := by
  cases ts with
  | nil =>
    obtain rfl := List.map_eq_nil_iff.1 h.symm
    rfl
  | cons t ts =>
    obtain ⟨u, us, rfl, hkind, -⟩ := List.map_eq_cons_iff.1 h.symm
    exact hkind.symm

theorem drop_one : SameKinds (ts.drop 1) (us.drop 1) := by
  rw [SameKinds, List.map_drop, List.map_drop, h]

theorem atSymbol_eq (mark : Symbol) : atSymbol mark ts = atSymbol mark us := by
  rw [atSymbol, atSymbol, h.kind_current]

theorem atKeyword_eq (word : Keyword) : atKeyword word ts = atKeyword word us := by
  rw [atKeyword, atKeyword, h.kind_current]

theorem atEnd_eq : atEnd ts = atEnd us := by
  rw [atEnd, atEnd, h.kind_current]

end SameKinds

/-- A token of the same kind comes first, and others of the same kinds follow. -/
theorem exists_of_sameKinds_cons {kind : TokenKind} {span : Span} {ts us : List Token}
    (h : SameKinds (⟨kind, span⟩ :: ts) us) :
    ∃ span' vs, us = ⟨kind, span'⟩ :: vs ∧ SameKinds ts vs := by
  obtain ⟨⟨_, span'⟩, vs, rfl, rfl, hvs⟩ := List.map_eq_cons_iff.1 h.symm
  exact ⟨span', vs, rfl, hvs.symm⟩

/-! ## Outcomes that are alike -/

/-- The same is wrong, at tokens of the same kind. -/
structure Obstacle.SameAs (o o' : Obstacle) : Prop where
  complaint : o.complaint = o'.complaint
  found : o.found.kind = o'.found.kind

theorem Obstacle.SameAs.isFinal_eq {o o' : Obstacle} (h : o.SameAs o') :
    o.isFinal = o'.isFinal := by
  rw [isFinal, isFinal, h.complaint]

theorem Obstacle.SameAs.message_eq {o o' : Obstacle} (h : o.SameAs o') :
    o.message = o'.message := by
  rw [message, message, h.found, h.complaint]

/-- Both outcomes are results of which `f` makes the same, with tokens of the same kinds left, or
both are the same complaint. -/
inductive SameOutcome {α γ : Type} (f : α → γ) :
    Except Obstacle (α × List Token) → Except Obstacle (α × List Token) → Prop
  | ok {a b : α} {ts us : List Token} : f a = f b → SameKinds ts us →
    SameOutcome f (.ok (a, ts)) (.ok (b, us))
  | error {o o' : Obstacle} : o.SameAs o' → SameOutcome f (.error o) (.error o')

namespace SameOutcome

variable {α β γ δ : Type} {f : α → γ} {g : β → δ} {x y x' y' : Except Obstacle (α × List Token)}

protected theorem bind {k l : α × List Token → Except Obstacle (β × List Token)}
    (h : SameOutcome f x y)
    (hkl : ∀ a b ts us, f a = f b → SameKinds ts us → SameOutcome g (k (a, ts)) (l (b, us))) :
    SameOutcome g (x >>= k) (y >>= l) := by
  cases h with
  | ok hab hts => exact hkl _ _ _ _ hab hts
  | error ho => exact .error ho

/-- Both outcomes of a choice. -/
protected theorem ite {c : Prop} [Decidable c] (ht : c → SameOutcome f x y)
    (hf : ¬ c → SameOutcome f x' y') :
    SameOutcome f (if c then x else x') (if c then y else y') := by
  by_cases hc : c
  · rw [if_pos hc, if_pos hc]
    exact ht hc
  · rw [if_neg hc, if_neg hc]
    exact hf hc

end SameOutcome

/-- On tokens of the same kinds the parsers have outcomes that are alike. -/
def ParsesAlike {α γ : Type} (f : α → γ) (p q : Parser α) : Prop :=
  ∀ ts us, SameKinds ts us → SameOutcome f (p ts) (q us)

section Basic

variable {α γ : Type} {f : α → γ}

theorem parsesAlike_complain (complaint : Complaint) :
    ParsesAlike f (complain complaint) (complain complaint) :=
  fun _ _ h ↦ .error ⟨rfl, h.kind_current⟩

theorem parsesAlike_takeSymbol (mark : Symbol) :
    ParsesAlike Token.kind (takeSymbol mark) (takeSymbol mark) := by
  intro ts us h
  rw [takeSymbol, takeSymbol, h.atSymbol_eq]
  exact .ite (fun _ ↦ .ok h.kind_current h.drop_one) fun _ ↦ parsesAlike_complain _ _ _ h

theorem parsesAlike_takeName : ParsesAlike Name.bare takeName takeName := by
  intro ts us h
  cases ts with
  | nil =>
    obtain rfl := List.map_eq_nil_iff.1 h.symm
    exact .error ⟨rfl, rfl⟩
  | cons t ts =>
    obtain ⟨kind, span⟩ := t
    obtain ⟨span', vs, rfl, hvs⟩ := exists_of_sameKinds_cons h
    cases kind with
    | name text => exact .ok rfl hvs
    | _ => exact .error ⟨rfl, rfl⟩

end Basic

namespace ExprLevel

/-- The parsers of a level do not see places. -/
structure Blind (level : ExprLevel) : Prop where
  expression : ParsesAlike Expr.bare level.expression level.expression
  binary : ∀ least, ParsesAlike Expr.bare (level.binary least) (level.binary least)
  operators : ∀ least {l r : Expr}, l.bare = r.bare →
    ParsesAlike Expr.bare (level.operators least l) (level.operators least r)
  unary : ParsesAlike Expr.bare level.unary level.unary
  suffixes : ∀ {l r : Expr}, l.bare = r.bare →
    ParsesAlike Expr.bare (level.suffixes l) (level.suffixes r)

/-- Neither do those of the level below, if there is one. -/
def BlindBelow (inner : Option ExprLevel) : Prop := ∀ level ∈ inner, level.Blind

variable {inner : Option ExprLevel}

theorem parsesAlike_deeper {α γ : Type} {f : α → γ} {p q : ExprLevel → Parser α}
    (hi : BlindBelow inner)
    (h : ∀ level : ExprLevel, level.Blind → ParsesAlike f (p level) (q level)) :
    ParsesAlike f (deeper inner p) (deeper inner q) := by
  cases inner with
  | none => exact parsesAlike_complain .tooComplex
  | some level => exact h level (hi level rfl)

/-! ## Operands and arguments -/

section Expression

variable {expression : Parser Expr} (he : ParsesAlike Expr.bare expression expression)

include he

theorem parsesAlike_group : ParsesAlike Expr.bare (group expression) (group expression) := by
  intro ts us h
  refine (he ts us h).bind fun a b ts us hab h ↦ ?_
  exact (parsesAlike_takeSymbol _ ts us h).bind fun _ _ ts us _ h ↦ .ok hab h

theorem parsesAlike_operand : ParsesAlike Expr.bare (operand expression) (operand expression) := by
  intro ts us h
  cases ts with
  | nil =>
    obtain rfl := List.map_eq_nil_iff.1 h.symm
    exact .error ⟨rfl, rfl⟩
  | cons t ts =>
    obtain ⟨kind, span⟩ := t
    obtain ⟨span', vs, rfl, hvs⟩ := exists_of_sameKinds_cons h
    cases kind with
    | int digits =>
      simp only [operand, intLiteral]
      exact .ite (fun _ ↦ .ok rfl hvs) fun _ ↦ .error ⟨rfl, rfl⟩
    | float | string | name => exact .ok rfl hvs
    | keyword word => cases word <;> first | exact .ok rfl hvs | exact .error ⟨rfl, rfl⟩
    | invalid | done => exact .error ⟨rfl, rfl⟩
    | symbol mark =>
      cases mark with
      | openParen =>
        have hgroup := parsesAlike_group he ts vs hvs
        simp only [operand]
        generalize group expression ts = x at hgroup ⊢
        generalize group expression vs = y at hgroup ⊢
        cases hgroup with
        | ok hab hrest => exact .ok hab hrest
        | error ho =>
          dsimp only
          rw [ho.isFinal_eq]
          exact .ite (fun _ ↦ .error ho) fun _ ↦ .error ⟨rfl, rfl⟩
      | _ => exact .error ⟨rfl, rfl⟩

theorem parsesAlike_moreArguments (fuel : Nat) :
    ParsesAlike bareArgs (moreArguments expression fuel) (moreArguments expression fuel) := by
  induction fuel with
  | zero => exact fun _ _ h ↦ .ok rfl h
  | succ fuel ih =>
    intro ts us h
    rw [moreArguments, moreArguments, h.atSymbol_eq]
    refine .ite (fun _ ↦ ?_) fun _ ↦ .ok rfl h
    have harg := he _ _ h.drop_one
    generalize expression (ts.drop 1) = x at harg ⊢
    generalize expression (us.drop 1) = y at harg ⊢
    cases harg with
    | ok hab hrest =>
      exact (ih _ _ hrest).bind fun _ _ ts us hargs h ↦ .ok (by rw [bareArgs, bareArgs, hab, hargs]) h
    | error ho =>
      dsimp only
      rw [ho.isFinal_eq]
      exact .ite (fun _ ↦ .error ho) fun _ ↦ .ok rfl h

theorem parsesAlike_arguments :
    ParsesAlike bareArgs (arguments expression) (arguments expression) := by
  intro ts us h
  have harg := he ts us h
  rw [arguments, arguments]
  generalize expression ts = x at harg ⊢
  generalize expression us = y at harg ⊢
  cases harg with
  | @ok a b ts us hab hrest =>
    dsimp only
    rw [hrest.length_eq]
    refine (parsesAlike_moreArguments he _ _ _ hrest).bind fun _ _ ts us hargs h ↦ ?_
    exact .ok (by rw [bareArgs, bareArgs, hab, hargs]) h
  | error ho =>
    dsimp only
    rw [ho.isFinal_eq]
    exact .ite (fun _ ↦ .error ho) fun _ ↦ .ok rfl h

end Expression

/-! ## The parsers of a level -/

theorem parsesAlike_expression (hi : BlindBelow inner) : ParsesAlike Expr.bare
    (deeper inner fun level ↦ level.binary 0) (deeper inner fun level ↦ level.binary 0) :=
  parsesAlike_deeper hi fun _ hlevel ↦ hlevel.binary 0

theorem parsesAlike_suffixesWith (hi : BlindBelow inner) {l r : Expr} (hlr : l.bare = r.bare) :
    ParsesAlike Expr.bare (suffixesWith inner l) (suffixesWith inner r) := by
  intro ts us h
  rw [suffixesWith, suffixesWith, h.atSymbol_eq, h.atSymbol_eq]
  refine .ite (fun _ ↦ ?_) fun _ ↦ .ite (fun _ ↦ ?_) fun _ ↦ .ok hlr h
  · refine parsesAlike_deeper hi (fun level hlevel ts us h ↦ ?_) ts us h
    refine (parsesAlike_arguments hlevel.expression _ _ h.drop_one).bind fun a b ts us hab h ↦ ?_
    refine (parsesAlike_takeSymbol _ ts us h).bind fun _ _ ts us _ h ↦ ?_
    exact hlevel.suffixes (by rw [Expr.bare, Expr.bare, hlr, hab]) ts us h
  · refine parsesAlike_deeper hi (fun level hlevel ts us h ↦ ?_) ts us h
    refine (parsesAlike_takeName _ _ h.drop_one).bind fun a b ts us hab h ↦ ?_
    exact hlevel.suffixes (by rw [Expr.bare, Expr.bare, hlr, hab]) ts us h

theorem unaryOp?_congr {t u : Token} (h : t.kind = u.kind) : unaryOp? t = unaryOp? u := by
  rw [unaryOp?, unaryOp?, h]

theorem binaryOp?_congr {t u : Token} (h : t.kind = u.kind) : binaryOp? t = binaryOp? u := by
  rw [binaryOp?, binaryOp?, h]

theorem parsesAlike_unaryWith (hi : BlindBelow inner) :
    ParsesAlike Expr.bare (unaryWith inner) (unaryWith inner) := by
  intro ts us h
  rw [unaryWith, unaryWith, unaryOp?_congr h.kind_current]
  split
  · have hoperand := parsesAlike_deeper hi (fun _ hlevel ↦ hlevel.unary) _ _ h.drop_one
    exact hoperand.bind fun a b ts us hab h ↦ .ok (by rw [Expr.bare, Expr.bare, hab]) h
  · have hoperand := parsesAlike_operand (parsesAlike_expression hi) ts us h
    exact hoperand.bind fun a b ts us hab h ↦ parsesAlike_suffixesWith hi hab ts us h

theorem parsesAlike_operatorsWith (hi : BlindBelow inner) (least : Nat) {l r : Expr}
    (hlr : l.bare = r.bare) :
    ParsesAlike Expr.bare (operatorsWith inner least l) (operatorsWith inner least r) := by
  intro ts us h
  rw [operatorsWith, operatorsWith, binaryOp?_congr h.kind_current]
  split
  · exact .ok hlr h
  · refine .ite (fun _ ↦ .ok hlr h) fun _ ↦ ?_
    refine parsesAlike_deeper hi (fun level hlevel ts us h ↦ ?_) ts us h
    refine (hlevel.binary _ _ _ h.drop_one).bind fun a b ts us hab h ↦ ?_
    exact hlevel.operators least (by rw [Expr.bare, Expr.bare, hlr, hab]) ts us h

/-- **A level does not see places if the next one does not.** -/
theorem blind_above (hi : BlindBelow inner) : (above inner).Blind where
  expression := parsesAlike_expression hi
  binary least ts us h := (parsesAlike_unaryWith hi ts us h).bind fun _ _ ts us hab h ↦
    parsesAlike_operatorsWith hi least hab ts us h
  operators least _ _ := parsesAlike_operatorsWith hi least
  unary := parsesAlike_unaryWith hi
  suffixes := parsesAlike_suffixesWith hi

/-- **No level sees places.** -/
theorem blind_ofRoom (room : Nat) : (ofRoom room).Blind := by
  induction room with
  | zero => exact blind_above (by simp [BlindBelow])
  | succ room ih =>
    refine blind_above fun level hlevel ↦ ?_
    obtain rfl := Option.some.inj hlevel
    exact ih

end ExprLevel

end Dossier.Script
