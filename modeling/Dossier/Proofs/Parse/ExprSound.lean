import Dossier.Proofs.Parse.ExprGrammar

/-!
# Parsed expressions are derived

What the parsers of an `ExprLevel` take off the front of a list of tokens can be read as the tree that
they yield, and what is left does not go on with it.

* `Finds` states this for one parser, and `ExprLevel.Sound` for all parsers of a level.
* A loop is given the tree that it starts with, together with the tokens that this was read from.  The
  loop over binary operators also has to know how tightly the tree binds: at least as tightly as any
  operator that can follow, for that reason no operator of the level of the next one is left over by
  the right operand before it.
* `ExprLevel.sound_above` takes a level from the next one, and `ExprLevel.sound_ofRoom` is the result.
-/

set_option autoImplicit false

namespace Dossier.Script

open Text (Span)

/-! ## Parsers -/

theorem bind_eq_ok_iff {ε α β : Type} {x : Except ε α} {f : α → Except ε β} {b : β} :
    (x >>= f) = .ok b ↔ ∃ a, x = .ok a ∧ f a = .ok b := by
  cases x with
  | error e =>
    constructor
    · intro h
      cases h
    · rintro ⟨_, ⟨⟩, _⟩
  | ok a =>
    constructor
    · exact fun h ↦ ⟨a, rfl, h⟩
    · rintro ⟨_, ⟨⟩, h⟩
      exact h

/-- What the parser yields stands in the relation to the tokens that it takes and to those that it
leaves. -/
def Finds {α : Type} (parser : Parser α) (P : α → List Token → List Token → Prop) : Prop :=
  ∀ ts a rest, parser ts = .ok (a, rest) → ∃ us, ts = us ++ rest ∧ P a us rest

theorem eq_cons_of_current {ts : List Token} {kind : TokenKind} (h : (current ts).kind = kind)
    (hkind : kind ≠ .done) : ts = ⟨kind, (current ts).span⟩ :: ts.drop 1 := by
  cases ts with
  | nil => exact absurd h.symm hkind
  | cons t ts =>
    subst h
    rfl

theorem eq_cons_of_atSymbol {ts : List Token} {mark : Symbol} (h : atSymbol mark ts = true) :
    ts = ⟨.symbol mark, (current ts).span⟩ :: ts.drop 1 :=
  eq_cons_of_current (beq_iff_eq.1 h) nofun

theorem eq_cons_of_takeSymbol {mark : Symbol} {ts rest : List Token} {t : Token}
    (h : takeSymbol mark ts = .ok (t, rest)) : ts = ⟨.symbol mark, t.span⟩ :: rest := by
  rw [takeSymbol] at h
  split at h
  · rename_i hat
    cases h
    exact eq_cons_of_atSymbol hat
  · cases h

theorem eq_cons_of_takeName {ts rest : List Token} {n : Name} (h : takeName ts = .ok (n, rest)) :
    ts = ⟨.name n.text, n.span⟩ :: rest := by
  unfold takeName at h
  split at h
  · cases h
    rfl
  · cases h

/-! ## Where expressions stop -/

/-- No call and no member follows. -/
structure NoSuffix (ts : List Token) : Prop where
  noCall : atSymbol .openParen ts = false
  noMember : atSymbol .dot ts = false

/-- What follows goes on with no operand, and with no operators of at least the level. -/
structure Stops (least : Nat) (ts : List Token) : Prop extends NoSuffix ts where
  looser : ∀ op, ExprLevel.binaryOp? (current ts) = some op → op.level < least

theorem UnaryOp.symbol_of_ofSymbol? {mark : Symbol} {op : UnaryOp}
    (h : UnaryOp.ofSymbol? mark = some op) : mark = op.symbol := by
  cases mark <;> cases h <;> rfl

theorem BinaryOp.symbol_of_ofSymbol? {mark : Symbol} {op : BinaryOp}
    (h : BinaryOp.ofSymbol? mark = some op) : mark = op.symbol := by
  cases mark <;> cases h <;> rfl

theorem BinaryOp.level_le (op : BinaryOp) : op.level ≤ BinaryOp.mul.level := by
  cases op <;> decide

theorem Stops.mono {least least' : Nat} {ts : List Token} (h : Stops least ts)
    (hle : least ≤ least') : Stops least' ts :=
  ⟨h.toNoSuffix, fun op hop ↦ Nat.lt_of_lt_of_le (h.looser op hop) hle⟩

/-- All binary operators are looser than the operands between them. -/
theorem NoSuffix.stops {ts : List Token} (h : NoSuffix ts) : Stops (BinaryOp.mul.level + 1) ts :=
  ⟨h, fun op _ ↦ Nat.lt_succ_of_le op.level_le⟩

namespace ExprLevel

/-- The parsers of a level find what they are for. -/
structure Sound (level : ExprLevel) : Prop where
  expression : Finds level.expression fun e us rest ↦ e.Derives us ∧ Stops 0 rest
  binary : ∀ least ≤ BinaryOp.mul.level + 1, Finds (level.binary least)
    fun e us rest ↦ (ExprPhrase.operators least e).Derives us ∧ Stops least rest
  operators : ∀ {least tightest : Nat} {left e : Expr} {front ts rest : List Token}, least ≤ tightest →
    (ExprPhrase.operators tightest left).Derives front → Stops (tightest + 1) ts →
    level.operators least left ts = .ok (e, rest) →
    ∃ us, ts = us ++ rest ∧ (ExprPhrase.operators least e).Derives (front ++ us) ∧ Stops least rest
  unary : Finds level.unary fun e us rest ↦ (ExprPhrase.signed e).Derives us ∧ NoSuffix rest
  suffixes : ∀ {base front}, (ExprPhrase.suffixed base).Derives front → Finds (level.suffixes base)
    fun e us rest ↦ (ExprPhrase.suffixed e).Derives (front ++ us) ∧ NoSuffix rest

/-- The level below, if there is one, is sound. -/
def Below (inner : Option ExprLevel) : Prop := ∀ level ∈ inner, level.Sound

variable {inner : Option ExprLevel}

/-- What is parsed one level deeper is parsed by a sound level. -/
theorem exists_of_deeper {α : Type} {parser : ExprLevel → Parser α} {ts rest : List Token} {a : α}
    (hi : Below inner) (h : deeper inner parser ts = .ok (a, rest)) :
    ∃ level : ExprLevel, level.Sound ∧ parser level ts = .ok (a, rest) := by
  cases inner with
  | none => cases h
  | some level => exact ⟨level, hi level rfl, h⟩

/-! ## Operands and arguments -/

section Expression

variable {expression : Parser Expr}
variable (he : Finds expression fun e us rest ↦ e.Derives us ∧ Stops 0 rest)
include he

theorem finds_group {ts rest : List Token} {e : Expr} (opening : Span)
    (h : group expression ts = .ok (e, rest)) :
    ∃ us, ts = us ++ rest ∧
      (ExprPhrase.operand e).Derives (⟨.symbol .openParen, opening⟩ :: us) := by
  obtain ⟨⟨inner, ts₁⟩, hinner, h⟩ := bind_eq_ok_iff.1 h
  obtain ⟨⟨close, ts₂⟩, hclose, h⟩ := bind_eq_ok_iff.1 h
  cases h
  obtain ⟨us, rfl, hus, -⟩ := he _ _ _ hinner
  obtain rfl := eq_cons_of_takeSymbol hclose
  exact ⟨us ++ [⟨.symbol .closeParen, close.span⟩], by simp, .group opening close.span hus⟩

theorem finds_operand :
    Finds (operand expression) fun e us _ ↦ (ExprPhrase.operand e).Derives us := by
  have hatom {t : Token} {e : Expr} {rest : List Token} (h : Atom t e) :
      ∃ us, t :: rest = us ++ rest ∧ (ExprPhrase.operand e).Derives us := ⟨[t], rfl, .atom h⟩
  intro ts e rest h
  unfold operand at h
  split at h
  · rw [intLiteral] at h
    split at h
    · cases h
      exact hatom (.int ..)
    · cases h
  · cases h
    exact hatom (.float ..)
  · cases h
    exact hatom (.string ..)
  · cases h
    exact hatom (.yes ..)
  · cases h
    exact hatom (.no ..)
  · cases h
    exact hatom (.null ..)
  · cases h
    exact hatom (.self ..)
  · cases h
    exact hatom (.name ..)
  · rename_i opening ts
    split at h
    · rename_i hgroup
      cases h
      obtain ⟨us, rfl, hus⟩ := finds_group he opening hgroup
      exact ⟨_ :: us, rfl, hus⟩
    · split at h <;> cases h
  · cases h

theorem finds_moreArguments (fuel : Nat) : Finds (moreArguments expression fuel)
    fun args us _ ↦ (ExprPhrase.moreArguments args).Derives us := by
  have hnone {rest : List Token} : ∃ us, rest = us ++ rest ∧
      (ExprPhrase.moreArguments []).Derives us := ⟨[], rfl, .noMoreArguments⟩
  induction fuel with
  | zero =>
    intro ts args rest h
    cases h
    exact hnone
  | succ fuel ih =>
    intro ts args rest h
    rw [moreArguments] at h
    split at h
    · rename_i hcomma
      split at h
      · rename_i arg ts₁ harg
        obtain ⟨⟨more, ts₂⟩, hmore, h⟩ := bind_eq_ok_iff.1 h
        cases h
        obtain ⟨us, hus, hderives, -⟩ := he _ _ _ harg
        obtain ⟨vs, rfl, hvs⟩ := ih _ _ _ hmore
        refine ⟨_, ?_, .moreArguments (current ts).span hderives hvs⟩
        rw [List.cons_append, List.append_assoc, ← hus]
        exact eq_cons_of_atSymbol hcomma
      · split at h
        · cases h
        · cases h
          exact hnone
    · cases h
      exact hnone

theorem finds_arguments : Finds (arguments expression)
    fun args us _ ↦ (ExprPhrase.arguments args).Derives us := by
  intro ts args rest h
  rw [arguments] at h
  split at h
  · rename_i arg ts₁ harg
    obtain ⟨⟨more, ts₂⟩, hmore, h⟩ := bind_eq_ok_iff.1 h
    cases h
    obtain ⟨us, rfl, hderives, -⟩ := he _ _ _ harg
    obtain ⟨vs, rfl, hvs⟩ := finds_moreArguments he _ _ _ _ hmore
    exact ⟨us ++ vs, (List.append_assoc ..).symm, .arguments hderives hvs⟩
  · split at h
    · cases h
    · cases h
      exact ⟨[], rfl, .noArguments⟩

end Expression

/-! ## The parsers of a level -/

theorem finds_suffixesWith (hi : Below inner) {base : Expr} {front : List Token}
    (hbase : (ExprPhrase.suffixed base).Derives front) : Finds (suffixesWith inner base)
      fun e us rest ↦ (ExprPhrase.suffixed e).Derives (front ++ us) ∧ NoSuffix rest := by
  intro ts e rest h
  rw [suffixesWith] at h
  split at h
  · rename_i hopen
    have hts := eq_cons_of_atSymbol hopen
    obtain ⟨level, hlevel, h⟩ := exists_of_deeper hi h
    obtain ⟨⟨args, ts₁⟩, hargs, h⟩ := bind_eq_ok_iff.1 h
    obtain ⟨⟨close, ts₂⟩, hclose, h⟩ := bind_eq_ok_iff.1 h
    obtain ⟨us, hus, hderives⟩ := finds_arguments hlevel.expression _ _ _ hargs
    have hcall := ExprPhrase.Derives.call (current ts).span close.span hbase hderives
    obtain ⟨vs, rfl, hvs, hstop⟩ := hlevel.suffixes hcall _ _ _ h
    rw [hus, eq_cons_of_takeSymbol hclose] at hts
    exact ⟨_ :: (us ++ ⟨.symbol .closeParen, close.span⟩ :: vs), by simpa using hts,
      by simpa using hvs, hstop⟩
  · split at h
    · rename_i hdot
      have hts := eq_cons_of_atSymbol hdot
      obtain ⟨level, hlevel, h⟩ := exists_of_deeper hi h
      obtain ⟨⟨m, ts₁⟩, hm, h⟩ := bind_eq_ok_iff.1 h
      have hmember := ExprPhrase.Derives.member (current ts).span m hbase
      obtain ⟨vs, rfl, hvs, hstop⟩ := hlevel.suffixes hmember _ _ _ h
      rw [eq_cons_of_takeName hm] at hts
      exact ⟨_ :: ⟨.name m.text, m.span⟩ :: vs, hts, by simpa using hvs, hstop⟩
    · rename_i hopen hdot
      cases h
      exact ⟨[], rfl, by rwa [List.append_nil], by simpa using hopen, by simpa using hdot⟩

theorem kind_of_unaryOp? {t : Token} {op : UnaryOp} (h : unaryOp? t = some op) :
    t.kind = .symbol op.symbol := by
  rw [unaryOp?] at h
  split at h
  · rename_i mark hkind
    rw [hkind, UnaryOp.symbol_of_ofSymbol? h]
  · cases h

theorem kind_of_binaryOp? {t : Token} {op : BinaryOp} (h : binaryOp? t = some op) :
    t.kind = .symbol op.symbol := by
  rw [binaryOp?] at h
  split at h
  · rename_i mark hkind
    rw [hkind, BinaryOp.symbol_of_ofSymbol? h]
  · cases h

theorem finds_expression (hi : Below inner) : Finds (deeper inner fun level ↦ level.binary 0)
    fun e us rest ↦ e.Derives us ∧ Stops 0 rest := by
  intro ts e rest h
  obtain ⟨level, hlevel, h⟩ := exists_of_deeper hi h
  exact hlevel.binary 0 (Nat.zero_le _) _ _ _ h

theorem finds_unaryWith (hi : Below inner) : Finds (unaryWith inner)
    fun e us rest ↦ (ExprPhrase.signed e).Derives us ∧ NoSuffix rest := by
  intro ts e rest h
  rw [unaryWith] at h
  split at h
  · rename_i op hop
    have hts := eq_cons_of_current (kind_of_unaryOp? hop) nofun
    obtain ⟨⟨operand, ts₁⟩, hoperand, h⟩ := bind_eq_ok_iff.1 h
    cases h
    obtain ⟨level, hlevel, hoperand⟩ := exists_of_deeper hi hoperand
    obtain ⟨us, hus, hderives, hstop⟩ := hlevel.unary _ _ _ hoperand
    rw [hus] at hts
    exact ⟨_ :: us, hts, .unary op (current ts).span hderives, hstop⟩
  · obtain ⟨⟨base, ts₁⟩, hbase, hsuffixes⟩ := bind_eq_ok_iff.1 h
    obtain ⟨us, rfl, hus⟩ := finds_operand (finds_expression hi) _ _ _ hbase
    obtain ⟨vs, rfl, hvs, hstop⟩ := finds_suffixesWith hi (.operand hus) _ _ _ hsuffixes
    exact ⟨us ++ vs, (List.append_assoc ..).symm, .suffixed hvs, hstop⟩

/-- The loop over binary operators keeps that no operator that follows binds tighter than the tree
so far, as every right operand takes all of those that do. -/
theorem finds_operatorsWith (hi : Below inner) {least tightest : Nat} {left e : Expr}
    {front ts rest : List Token} (hle : least ≤ tightest)
    (hleft : (ExprPhrase.operators tightest left).Derives front) (hstop : Stops (tightest + 1) ts)
    (h : operatorsWith inner least left ts = .ok (e, rest)) :
    ∃ us, ts = us ++ rest ∧ (ExprPhrase.operators least e).Derives (front ++ us) ∧
      Stops least rest := by
  rw [operatorsWith] at h
  split at h
  · rename_i hnone
    cases h
    refine ⟨[], rfl, ?_, hstop.toNoSuffix, fun op hop ↦ ?_⟩
    · rw [List.append_nil]
      exact hleft.looser hle
    · rw [hnone] at hop
      cases hop
  · rename_i op hop
    split at h
    · rename_i hloose
      cases h
      refine ⟨[], rfl, ?_, hstop.toNoSuffix, fun op' hop' ↦ ?_⟩
      · rw [List.append_nil]
        exact hleft.looser hle
      · rw [hop] at hop'
        cases hop'
        exact hloose
    · rename_i htight
      have hts := eq_cons_of_current (kind_of_binaryOp? hop) nofun
      have hlevel : op.level ≤ tightest := Nat.le_of_lt_succ (hstop.looser op hop)
      obtain ⟨level, hsound, h⟩ := exists_of_deeper hi h
      obtain ⟨⟨right, ts₁⟩, hright, h⟩ := bind_eq_ok_iff.1 h
      obtain ⟨us, hus, hderives, hnext⟩ :=
        hsound.binary _ (Nat.succ_le_succ op.level_le) _ _ _ hright
      have hfold := ExprPhrase.Derives.binary op (current ts).span (hleft.looser hlevel) hderives
      obtain ⟨vs, rfl, hvs, hend⟩ := hsound.operators (Nat.le_of_not_lt htight) hfold hnext h
      rw [hus] at hts
      exact ⟨_ :: (us ++ vs), by simpa using hts, by simpa using hvs, hend⟩

theorem finds_binary (hi : Below inner) {least : Nat} (hle : least ≤ BinaryOp.mul.level + 1) :
    Finds ((above inner).binary least)
      fun e us rest ↦ (ExprPhrase.operators least e).Derives us ∧ Stops least rest := by
  intro ts e rest h
  obtain ⟨⟨left, ts₁⟩, hleft, hoperators⟩ := bind_eq_ok_iff.1 h
  obtain ⟨us, rfl, hus, hstop⟩ := finds_unaryWith hi _ _ _ hleft
  have hstop := hstop.stops.mono (Nat.le_succ _)
  obtain ⟨vs, rfl, hvs, hend⟩ := finds_operatorsWith hi hle (.signed hus) hstop hoperators
  exact ⟨us ++ vs, (List.append_assoc ..).symm, hvs, hend⟩

/-- **A level is sound if the next one is.** -/
theorem sound_above (hi : Below inner) : (above inner).Sound where
  expression := finds_expression hi
  binary _ hle := finds_binary hi hle
  operators hle hleft hstop h := finds_operatorsWith hi hle hleft hstop h
  unary := finds_unaryWith hi
  suffixes hbase := finds_suffixesWith hi hbase

/-- **All levels are sound.** -/
theorem sound_ofRoom (room : Nat) : (ofRoom room).Sound := by
  induction room with
  | zero => exact sound_above (by simp [Below])
  | succ room ih =>
    refine sound_above fun level hlevel ↦ ?_
    obtain rfl := Option.some.inj hlevel
    exact ih

end ExprLevel

end Dossier.Script
