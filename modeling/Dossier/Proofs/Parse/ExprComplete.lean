import Dossier.Proofs.Parse.ExprSound

/-!
# Derived expressions are parsed

Tokens that can be read as an expression are taken off as that expression, if what follows does not go
on with it, or the parser is stopped by a limit: a number that is too large, or nesting that is too
deep.  At which of these it is stopped depends on the level, so the statements leave it open.

* `LeadsTo r r'` says that the outcome `r` is `r'` unless a limit is met.
* `ExprPhrase.Found` says for each phrase what becomes of the parsers that stand before its tokens.  A
  phrase that can go on behind its tokens leads into the loop that looks for more, at some level.
* `ExprPhrase.Derives.found` is the induction, and `Expr.Derives.parsed` the result.
-/

set_option autoImplicit false

namespace Dossier.Script

open Text (Span)

/-! ## Limits -/

/-- A limit was met, at a token that is fine in itself. -/
def AtLimit {α : Type} (r : Except Obstacle α) : Prop :=
  ∃ o : Obstacle, r = .error o ∧ o.isFinal ∧ o.found.kind.isProper

/-- The first outcome is the second one, unless a limit was met. -/
def LeadsTo {α : Type} (r r' : Except Obstacle α) : Prop := r = r' ∨ AtLimit r

section LeadsTo

variable {α β : Type} {r r' r'' : Except Obstacle α}

theorem AtLimit.bind (h : AtLimit r) (f : α → Except Obstacle β) : AtLimit (r >>= f) := by
  obtain ⟨o, rfl, ho⟩ := h
  exact ⟨o, rfl, ho⟩

theorem LeadsTo.refl (r : Except Obstacle α) : LeadsTo r r := .inl rfl

theorem AtLimit.leadsTo (h : AtLimit r) : LeadsTo r r' := .inr h

theorem LeadsTo.trans (h : LeadsTo r r') (h' : LeadsTo r' r'') : LeadsTo r r'' := by
  rcases h with rfl | h
  · exact h'
  · exact h.leadsTo

theorem LeadsTo.bind {a : α} {f : α → Except Obstacle β} {s : Except Obstacle β}
    (h : LeadsTo r (.ok a)) (hf : LeadsTo (f a) s) : LeadsTo (r >>= f) s := by
  rcases h with rfl | h
  · exact hf
  · exact (h.bind f).leadsTo

end LeadsTo

/-! ## Taking what is there -/

theorem takeSymbol_cons (mark : Symbol) (span : Span) (ts : List Token) :
    takeSymbol mark (⟨.symbol mark, span⟩ :: ts) = .ok (⟨.symbol mark, span⟩, ts) := by
  simp [takeSymbol, atSymbol, current]

theorem leadsTo_takeSymbol {α : Type} {mark : Symbol} {span : Span} {ts : List Token}
    {f : Token × List Token → Except Obstacle α} {r : Except Obstacle α}
    (h : LeadsTo (f (⟨.symbol mark, span⟩, ts)) r) :
    LeadsTo (takeSymbol mark (⟨.symbol mark, span⟩ :: ts) >>= f) r := by
  rw [takeSymbol_cons]
  exact h

theorem atSymbol_cons (mark mark' : Symbol) (span : Span) (ts : List Token) :
    atSymbol mark (⟨.symbol mark', span⟩ :: ts) = decide (mark' = mark) := by
  simp [atSymbol, current, beq_eq_decide]

/-- What follows does not go on with an expression at all. -/
theorem Stops.of_none {ts : List Token} (hcall : atSymbol .openParen ts = false)
    (hmember : atSymbol .dot ts = false) (hop : ExprLevel.binaryOp? (current ts) = none)
    (least : Nat) : Stops least ts := by
  refine ⟨⟨hcall, hmember⟩, fun op h ↦ ?_⟩
  rw [hop] at h
  cases h

namespace ExprLevel

/-- The level below one with so much room. -/
def below : (room : Nat) → Option ExprLevel
  | 0 => none
  | room + 1 => some (ofRoom room)

theorem ofRoom_eq_above (room : Nat) : ofRoom room = above (below room) := by
  cases room <;> rfl

/-- One level deeper the limit is met, or there is a level. -/
theorem deeper_below {α : Type} {ts : List Token} (h : (current ts).kind.isProper) (room : Nat)
    (parser : ExprLevel → Parser α) : AtLimit (deeper (below room) parser ts) ∨
      ∃ room', deeper (below room) parser ts = parser (ofRoom room') ts := by
  cases room with
  | zero => exact .inl ⟨_, rfl, rfl, h⟩
  | succ room => exact .inr ⟨room, rfl⟩

theorem suffixesWith_eq {inner : Option ExprLevel} {base : Expr} {ts : List Token}
    (h : NoSuffix ts) : suffixesWith inner base ts = .ok (base, ts) := by
  rw [suffixesWith, h.noCall, h.noMember]
  rfl

theorem operatorsWith_eq {inner : Option ExprLevel} {least : Nat} {left : Expr} {ts : List Token}
    (h : Stops least ts) : operatorsWith inner least left ts = .ok (left, ts) := by
  rw [operatorsWith]
  split
  · rfl
  · rename_i op hop
    rw [if_pos (h.looser op hop)]

theorem binaryOp?_symbol (op : BinaryOp) (span : Span) :
    binaryOp? ⟨.symbol op.symbol, span⟩ = some op := op.ofSymbol?_symbol

theorem unaryOp?_symbol (op : UnaryOp) (span : Span) :
    unaryOp? ⟨.symbol op.symbol, span⟩ = some op := op.ofSymbol?_symbol

/-- No operand starts with a sign. -/
theorem unaryOp?_eq_none {t : Token} (h : t.kind.opensOperand) : unaryOp? t = none := by
  rw [Option.eq_none_iff_forall_ne_some]
  intro op hop
  rw [kind_of_unaryOp? hop] at h
  cases op <;> exact Bool.noConfusion h

end ExprLevel

namespace ExprPhrase

open ExprLevel

/-- What the parsers of all levels make of the tokens and what follows them. -/
def Found (ts : List Token) : ExprPhrase → Prop
  | operators level e => ∀ room least rest, least ≤ level → Stops (level + 1) rest →
      ∃ room', LeadsTo ((ofRoom room).binary least (ts ++ rest))
        (operatorsWith (below room') least e rest)
  | signed e => ∀ room rest, NoSuffix rest →
      LeadsTo (unaryWith (below room) (ts ++ rest)) (.ok (e, rest))
  | suffixed e => ∀ room rest, ∃ room', LeadsTo (unaryWith (below room) (ts ++ rest))
      (suffixesWith (below room') e rest)
  | operand e => ∀ room rest,
      LeadsTo (ExprLevel.operand (ofRoom room).expression (ts ++ rest)) (.ok (e, rest))
  | arguments args => ∀ room rest, atSymbol .closeParen rest →
      LeadsTo (ExprLevel.arguments (ofRoom room).expression (ts ++ rest)) (.ok (args, rest))
  | moreArguments args => ∀ room fuel rest, ts.length ≤ fuel → atSymbol .closeParen rest →
      LeadsTo (ExprLevel.moreArguments (ofRoom room).expression fuel (ts ++ rest))
        (.ok (args, rest))

/-! ## Expressions within phrases -/

theorem Found.expression {e : Expr} {ts : List Token} (h : (operators 0 e).Found ts)
    (hopens : (current ts).kind.opensExpr) (room : Nat) (rest : List Token) (hrest : Stops 0 rest) :
    LeadsTo ((ofRoom room).expression (ts ++ rest)) (.ok (e, rest)) := by
  have hproper := TokenKind.isProper_of_opensExpr (opensExpr_append hopens rest)
  rw [ofRoom_eq_above]
  rcases deeper_below hproper room fun level ↦ level.binary 0 with hlimit | ⟨room', heq⟩
  · exact hlimit.leadsTo
  · obtain ⟨room'', hleads⟩ := h room' 0 rest (Nat.le_refl 0) (hrest.mono (Nat.zero_le _))
    rw [operatorsWith_eq hrest, ← heq] at hleads
    exact hleads

/-! ## The rules one by one -/

variable {e base : Expr} {args : List Expr} {ts us : List Token}

theorem found_atom {t : Token} (h : Atom t e) : (operand e).Found [t] := by
  intro room rest
  cases h with
  | int digits span =>
    rw [List.singleton_append, ExprLevel.operand, intLiteral]
    split
    · exact .refl _
    · exact AtLimit.leadsTo ⟨_, rfl, rfl, rfl⟩
  | _ => exact .refl _

theorem found_group (opening close : Span) (h : (operators 0 e).Found ts)
    (hopens : (current ts).kind.opensExpr) : (operand e).Found
      (⟨.symbol .openParen, opening⟩ :: (ts ++ [⟨.symbol .closeParen, close⟩])) := by
  intro room rest
  have hinner := h.expression hopens room (⟨.symbol .closeParen, close⟩ :: rest)
    (.of_none rfl rfl rfl 0)
  have hgroup : LeadsTo (group (ofRoom room).expression (ts ++ ⟨.symbol .closeParen, close⟩ :: rest))
      (.ok (e, rest)) := hinner.bind (leadsTo_takeSymbol (.refl _))
  rw [List.cons_append, List.append_assoc, List.singleton_append]
  rcases hgroup with heq | ⟨o, heq, ho, hfound⟩
  · exact .inl (by simp only [ExprLevel.operand, heq])
  · exact .inr ⟨o, by simp only [ExprLevel.operand, heq, ho, if_true], ho, hfound⟩

theorem found_operand (h : (operand e).Found ts) (hopens : (current ts).kind.opensOperand) :
    (suffixed e).Found ts := by
  intro room rest
  refine ⟨room, ?_⟩
  rw [unaryWith, unaryOp?_eq_none (opensOperand_append hopens rest)]
  have hoperand := h room rest
  rw [ofRoom_eq_above] at hoperand
  exact hoperand.bind (.refl _)

/-- The loop over suffixes takes a call. -/
theorem suffixesWith_call (opening close : Span) (hargs : (arguments args).Found us) (room : Nat)
    (rest : List Token) : ∃ room', LeadsTo
      (suffixesWith (below room) base
        (⟨.symbol .openParen, opening⟩ :: (us ++ ⟨.symbol .closeParen, close⟩ :: rest)))
      (suffixesWith (below room') (.call base args (base.span.cover close)) rest) := by
  rw [suffixesWith, atSymbol_cons, if_pos (by decide)]
  cases room with
  | zero => exact ⟨0, AtLimit.leadsTo ⟨_, rfl, rfl, rfl⟩⟩
  | succ room =>
    refine ⟨room, (hargs room _ rfl).bind (leadsTo_takeSymbol ?_)⟩
    rw [ofRoom_eq_above]
    exact .refl _

/-- The loop over suffixes takes a member. -/
theorem suffixesWith_member (point : Span) (m : Name) (room : Nat) (rest : List Token) :
    ∃ room', LeadsTo
      (suffixesWith (below room) base (⟨.symbol .dot, point⟩ :: ⟨.name m.text, m.span⟩ :: rest))
      (suffixesWith (below room') (.member base m (base.span.cover m.span)) rest) := by
  rw [suffixesWith, atSymbol_cons, atSymbol_cons, if_neg (by decide), if_pos (by decide)]
  cases room with
  | zero => exact ⟨0, AtLimit.leadsTo ⟨_, rfl, rfl, rfl⟩⟩
  | succ room =>
    refine ⟨room, LeadsTo.bind (.refl _) ?_⟩
    rw [ofRoom_eq_above]
    exact .refl _

theorem found_call (opening close : Span) (hbase : (suffixed base).Found ts)
    (hargs : (arguments args).Found us) :
    (suffixed (.call base args (base.span.cover close))).Found
      (ts ++ ⟨.symbol .openParen, opening⟩ :: (us ++ [⟨.symbol .closeParen, close⟩])) := by
  intro room rest
  simp only [List.append_assoc, List.cons_append, List.nil_append]
  obtain ⟨room', hleads⟩ := hbase room _
  obtain ⟨room'', hcall⟩ := suffixesWith_call opening close hargs room' rest
  exact ⟨room'', hleads.trans hcall⟩

theorem found_member (point : Span) (m : Name) (hbase : (suffixed base).Found ts) :
    (suffixed (.member base m (base.span.cover m.span))).Found
      (ts ++ [⟨.symbol .dot, point⟩, ⟨.name m.text, m.span⟩]) := by
  intro room rest
  simp only [List.append_assoc, List.cons_append, List.nil_append]
  obtain ⟨room', hleads⟩ := hbase room _
  obtain ⟨room'', hmember⟩ := suffixesWith_member point m room' rest
  exact ⟨room'', hleads.trans hmember⟩

theorem found_suffixed (h : (suffixed e).Found ts) : (signed e).Found ts := by
  intro room rest hrest
  obtain ⟨room', hleads⟩ := h room rest
  rw [suffixesWith_eq hrest] at hleads
  exact hleads

theorem found_unary (op : UnaryOp) (sign : Span) (h : (signed e).Found ts)
    (hopens : (current ts).kind.opensExpr) :
    (signed (.unary op e (sign.cover e.span))).Found (⟨.symbol op.symbol, sign⟩ :: ts) := by
  intro room rest hrest
  have hproper := TokenKind.isProper_of_opensExpr (opensExpr_append hopens rest)
  have hop : unaryOp? (current (⟨.symbol op.symbol, sign⟩ :: ts ++ rest)) = some op :=
    unaryOp?_symbol op sign
  rw [unaryWith, hop]
  refine LeadsTo.bind (a := (e, rest)) ?_ (.refl _)
  rcases deeper_below hproper room ExprLevel.unary with hlimit | ⟨room', heq⟩
  · exact hlimit.leadsTo
  · have hleads := h room' rest hrest
    rw [ofRoom_eq_above] at heq
    rw [List.cons_append, List.drop_one, List.tail_cons, heq]
    exact hleads

theorem found_signed (h : (signed e).Found ts) :
    (operators (BinaryOp.mul.level + 1) e).Found ts := by
  intro room least rest _ hrest
  refine ⟨room, ?_⟩
  rw [ofRoom_eq_above]
  exact (h room rest hrest.toNoSuffix).bind (.refl _)

theorem found_tighter {level : Nat} (h : (operators (level + 1) e).Found ts) :
    (operators level e).Found ts := by
  intro room least rest hle hrest
  exact h room least rest (Nat.le_succ_of_le hle) (hrest.mono (Nat.le_succ _))

/-- The loop over operators takes an operator and its right operand. -/
theorem operatorsWith_binary {l r : Expr} {op : BinaryOp} (place : Span) {least : Nat}
    (hle : least ≤ op.level) (hr : (operators (op.level + 1) r).Found us) (room : Nat)
    {rest : List Token} (hrest : Stops (op.level + 1) rest) : ∃ room', LeadsTo
      (operatorsWith (below room) least l (⟨.symbol op.symbol, place⟩ :: (us ++ rest)))
      (operatorsWith (below room') least (.binary op l r (l.span.cover r.span)) rest) := by
  have hop : binaryOp? (current (⟨.symbol op.symbol, place⟩ :: (us ++ rest))) = some op :=
    binaryOp?_symbol op place
  rw [operatorsWith, hop]
  dsimp only
  rw [if_neg (Nat.not_lt_of_le hle)]
  cases room with
  | zero => exact ⟨0, AtLimit.leadsTo ⟨_, rfl, rfl, rfl⟩⟩
  | succ room =>
    obtain ⟨room', hright⟩ := hr room (op.level + 1) rest (Nat.le_refl _) (hrest.mono (Nat.le_succ _))
    rw [operatorsWith_eq hrest] at hright
    refine ⟨room, hright.bind ?_⟩
    rw [ofRoom_eq_above]
    exact .refl _

theorem found_binary {l r : Expr} (op : BinaryOp) (place : Span)
    (hl : (operators op.level l).Found ts) (hr : (operators (op.level + 1) r).Found us) :
    (operators op.level (.binary op l r (l.span.cover r.span))).Found
      (ts ++ ⟨.symbol op.symbol, place⟩ :: us) := by
  intro room least rest hle hrest
  have hstop : Stops (op.level + 1) (⟨.symbol op.symbol, place⟩ :: (us ++ rest)) := by
    refine ⟨⟨?_, ?_⟩, ?_⟩
    · rw [atSymbol_cons]
      cases op <;> rfl
    · rw [atSymbol_cons]
      cases op <;> rfl
    · intro op' hop'
      have := (binaryOp?_symbol op place).symm.trans hop'
      cases this
      exact Nat.lt_succ_self _
  obtain ⟨room', hleads⟩ := hl room least _ hle hstop
  obtain ⟨room'', hbinary⟩ := operatorsWith_binary place hle hr room' hrest
  rw [List.append_assoc, List.cons_append]
  exact ⟨room'', hleads.trans hbinary⟩

/-- No expression starts with a closing parenthesis. -/
theorem found_noArguments : (arguments []).Found [] := by
  intro room rest hclose
  rw [List.nil_append, eq_cons_of_atSymbol hclose]
  cases room with
  | zero => exact AtLimit.leadsTo ⟨_, rfl, rfl, rfl⟩
  | succ room => cases room <;> exact .refl _

/-- An argument ends where the next one or the end of the list follows. -/
theorem stops_of_moreArguments {rest : List Token} (h : (moreArguments args).Derives us)
    (hrest : atSymbol .closeParen rest) : Stops 0 (us ++ rest) := by
  rcases h.opens with rfl | hcomma
  · rw [List.nil_append, eq_cons_of_atSymbol hrest]
    exact .of_none rfl rfl rfl 0
  · rw [eq_cons_of_current hcomma nofun]
    exact .of_none rfl rfl rfl 0

section Arguments

variable {arg : Expr}

theorem found_arguments (harg : (operators 0 arg).Found ts)
    (hopens : (current ts).kind.opensExpr) (hus : (moreArguments args).Derives us)
    (hmore : (moreArguments args).Found us) : (arguments (arg :: args)).Found (ts ++ us) := by
  intro room rest hrest
  have hlength : us.length ≤ (us ++ rest).length := by simp
  have hargs := hmore room _ rest hlength hrest
  rw [List.append_assoc, ExprLevel.arguments]
  rcases harg.expression hopens room _ (stops_of_moreArguments hus hrest) with
    heq | ⟨o, heq, ho, hfound⟩
  · rw [heq]
    exact hargs.bind (.refl _)
  · rw [heq]
    dsimp only
    rw [if_pos ho]
    exact AtLimit.leadsTo ⟨o, rfl, ho, hfound⟩

theorem found_noMoreArguments : (moreArguments []).Found [] := by
  intro room fuel rest _ hclose
  rw [List.nil_append]
  cases fuel with
  | zero => exact .refl _
  | succ fuel =>
    rw [ExprLevel.moreArguments, eq_cons_of_atSymbol hclose]
    exact .refl _

theorem found_moreArguments (comma : Span) (harg : (operators 0 arg).Found ts)
    (hopens : (current ts).kind.opensExpr) (hus : (moreArguments args).Derives us)
    (hmore : (moreArguments args).Found us) :
    (moreArguments (arg :: args)).Found (⟨.symbol .comma, comma⟩ :: (ts ++ us)) := by
  intro room fuel rest hlength hrest
  cases fuel with
  | zero => exact absurd hlength (by simp)
  | succ fuel =>
    have hlength : us.length ≤ fuel := by
      rw [List.length_cons, List.length_append] at hlength
      omega
    have hargs := hmore room fuel rest hlength hrest
    rw [List.cons_append, List.append_assoc, ExprLevel.moreArguments, atSymbol_cons,
      if_pos (by decide), List.drop_one, List.tail_cons]
    rcases harg.expression hopens room _ (stops_of_moreArguments hus hrest) with
      heq | ⟨o, heq, ho, hfound⟩
    · rw [heq]
      exact hargs.bind (.refl _)
    · rw [heq]
      dsimp only
      rw [if_pos ho]
      exact AtLimit.leadsTo ⟨o, rfl, ho, hfound⟩

end Arguments

/-! ## All phrases -/

/-- **Derived phrases are found.** -/
theorem Derives.found {p : ExprPhrase} (h : p.Derives ts) : p.Found ts := by
  induction h with
  | atom h => exact found_atom h
  | group opening close h ih => exact found_group opening close ih h.opens
  | operand h ih => exact found_operand ih h.opens
  | call opening close _ _ ih ih' => exact found_call opening close ih ih'
  | member point m _ ih => exact found_member point m ih
  | suffixed _ ih => exact found_suffixed ih
  | unary op sign h ih => exact found_unary op sign ih h.opens
  | signed _ ih => exact found_signed ih
  | tighter _ ih => exact found_tighter ih
  | binary op place _ _ ih ih' => exact found_binary op place ih ih'
  | noArguments => exact found_noArguments
  | arguments h h' ih ih' => exact found_arguments ih h.opens h' ih'
  | noMoreArguments => exact found_noMoreArguments
  | moreArguments comma h h' ih ih' => exact found_moreArguments comma ih h.opens h' ih'

end ExprPhrase

/-- **Derived expressions are parsed**, if what follows does not go on with them. -/
theorem Expr.Derives.parsed {e : Expr} {ts : List Token} (h : e.Derives ts) (room : Nat)
    (rest : List Token) (hrest : Stops 0 rest) :
    LeadsTo ((ExprLevel.ofRoom room).expression (ts ++ rest)) (.ok (e, rest)) :=
  (ExprPhrase.Derives.found h).expression (ExprPhrase.Derives.opens h) room rest hrest

end Dossier.Script
