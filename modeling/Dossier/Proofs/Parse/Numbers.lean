import Dossier.Proofs.Number.Numerals
import Dossier.Proofs.Parse.ExprComplete
import Dossier.Proofs.Parse.Layout

/-!
# Numbers that are written

What is written for a whole number is read as its digits, after a minus sign if it is negative, and
what is parsed is a literal, or the negation of one.

* `numberKinds` are the tokens of a number, and `kindsOf_intText` says that they are read where the
  text of the number stands.
* `IsNumber e n` says that the expression is the literal of a number, or the negation of that of a
  negative one.  A literal holds less than 2^63, so that there is none for the least number.
* `expression_number` is the result: of the tokens of every other number this is parsed.
-/

set_option autoImplicit false

namespace Dossier.Script

open Text (Span isPlainDigit)

/-! ## Tokens -/

/-- The tokens of a number. -/
def numberKinds (n : Int) : List TokenKind :=
  let digits := TokenKind.int (String.ofList (Number.digitsOf n.natAbs))
  if n < 0 then [.symbol .minus, digits] else [digits]

/-- A digit is none of the characters at which other pieces than numbers start. -/
theorem piece_of_digit {c : Char} (hc : isPlainDigit c = true) (cs : List Char) :
    piece c cs = numberPiece c cs := by
  have hne (d : Char) (hd : isPlainDigit d = false) : c ≠ d := by
    rintro rfl
    rw [hc] at hd
    cases hd
  have hslash := hne '/' (by decide)
  simp [piece, isSpace, hne ' ' (by decide), hne '\t' (by decide), hne '\r' (by decide),
    hne '\n' (by decide), hne '"' (by decide), hslash, hc]

/-- What can follow a number without becoming a part of it. -/
def EndsNumber (rest : List Char) : Prop :=
  ∀ c, rest.head? = some c → isPlainDigit c = false ∧ c ≠ '.'

/-- **Digits are read as one token.** -/
theorem kindsOf_digits {ds rest : List Char} {n : Nat} (h : Number.Numeral ds n)
    (hrest : EndsNumber rest) :
    kindsOf (ds ++ rest) = .int (String.ofList ds) :: kindsOf rest := by
  obtain ⟨c, cs, rfl, hc⟩ := h.exists_cons
  have hall : ∀ d ∈ cs, isPlainDigit d = true := fun d hd ↦ h.digits d (List.mem_cons_of_mem _ hd)
  have hstop : rest.takeWhile isPlainDigit = [] ∧ rest.dropWhile isPlainDigit = rest := by
    cases rest with
    | nil => exact ⟨rfl, rfl⟩
    | cons d rest =>
      have hd := (hrest d rfl).1
      exact ⟨List.takeWhile_cons_of_neg (by simp [hd]), List.dropWhile_cons_of_neg (by simp [hd])⟩
  have htake : (cs ++ rest).takeWhile isPlainDigit = cs := by
    rw [List.takeWhile_append_of_pos hall, hstop.1, List.append_nil]
  have hdrop : (cs ++ rest).dropWhile isPlainDigit = rest := by
    rw [List.dropWhile_append_of_pos hall, hstop.2]
  have hpiece : piece c (cs ++ rest) = ⟨some (.int (String.ofList (c :: cs))), cs.length⟩ := by
    rw [piece_of_digit hc, numberPiece_whole, htake]
    -- what follows is no point
    rintro d ds hds
    rw [hdrop] at hds
    exact absurd rfl (hrest '.' (by rw [hds]; rfl)).2
  rw [List.cons_append, kindsOf_cons, hpiece, List.drop_left]
  rfl

/-- A minus sign in front of a digit is a token of its own. -/
theorem kindsOf_minus {d : Char} (hd : isPlainDigit d = true) (cs : List Char) :
    kindsOf ('-' :: d :: cs) = .symbol .minus :: kindsOf (d :: cs) := by
  have hdouble : double? '-' d = none := by
    have hne : d ≠ '=' := by
      rintro rfl
      cases hd
    unfold double?
    split <;> simp_all
  have hpiece : piece '-' (d :: cs) = ⟨some (.symbol .minus), 0⟩ := by
    have hstart : Text.isNameStart '-' = false := by decide +kernel
    simp [piece, isSpace, isPlainDigit, hstart, symbolPiece, hdouble, single?]
  rw [kindsOf_cons, hpiece]
  rfl

/-- **The text of a number is read as its tokens.** -/
theorem kindsOf_intText (n : Int) (rest : List Char) (hrest : EndsNumber rest) :
    kindsOf ((Number.intText n).toList ++ rest) = numberKinds n ++ kindsOf rest := by
  have hnumeral := Number.numeral_digitsOf n.natAbs
  rw [Number.toList_intText, numberKinds]
  split
  · obtain ⟨c, cs, hcs, hc⟩ := hnumeral.exists_cons
    have hdigits := kindsOf_digits hnumeral hrest
    rw [hcs, List.cons_append] at hdigits
    rw [hcs, List.cons_append, List.cons_append, kindsOf_minus hc, hdigits]
    rfl
  · exact kindsOf_digits hnumeral hrest

/-- A token of the kind that comes first, and those of the others. -/
theorem exists_of_map_kind {ts : List Token} {kind : TokenKind} {kinds : List TokenKind}
    (h : ts.map Token.kind = kind :: kinds) :
    ∃ span us, ts = ⟨kind, span⟩ :: us ∧ us.map Token.kind = kinds := by
  obtain ⟨⟨_, span⟩, us, rfl, rfl, hus⟩ := List.map_eq_cons_iff.1 h
  exact ⟨span, us, rfl, hus⟩

/-! ## Expressions -/

/-- The expression is what is written for a number: its literal, or the negation of one. -/
inductive IsNumber : Expr → Int64 → Prop
  | literal (n : Int64) (span : Span) : IsNumber (.literal (.int n) span) n
  | negated (n : Int64) (span span' : Span) :
    IsNumber (.unary .neg (.literal (.int n) span) span') (-n)

/-- A token with which an expression ends at the latest. -/
def ClosesExpr (ts : List Token) : Prop :=
  (current ts).kind = .done ∨ (current ts).kind = .symbol .semicolon

theorem ClosesExpr.stops {ts : List Token} (h : ClosesExpr ts) (least : Nat) : Stops least ts := by
  rcases h with h | h <;>
    exact .of_none (by simp [atSymbol, h]) (by simp [atSymbol, h])
      (by simp [ExprLevel.binaryOp?, h, BinaryOp.ofSymbol?]) least

namespace ExprLevel

theorem unaryWith_digits (inner : Option ExprLevel) {n : Nat} (hn : n < Number.twoTo 63) (span : Span)
    {rest : List Token} (hrest : ClosesExpr rest) :
    unaryWith inner (⟨.int (String.ofList (Number.digitsOf n)), span⟩ :: rest) =
      .ok (.literal (.int (Int64.ofNat n)) span, rest) := by
  have hvalue : Number.natOfDigits (String.ofList (Number.digitsOf n)).toList = n := by
    rw [String.toList_ofList]
    exact (Number.numeral_digitsOf n).value
  have hoperand (expression : Parser Expr) :
      operand expression (⟨.int (String.ofList (Number.digitsOf n)), span⟩ :: rest) =
        .ok (.literal (.int (Int64.ofNat n)) span, rest) := by
    simp only [operand, intLiteral, hvalue, if_pos hn]
  rw [unaryWith]
  simp only [current, List.headD_cons, unaryOp?, hoperand]
  exact suffixesWith_eq (hrest.stops 0).toNoSuffix

theorem unaryWith_minus (level : ExprLevel) (inner : Option ExprLevel)
    (hlevel : level.unary = unaryWith inner) {n : Nat} (hn : n < Number.twoTo 63) (start span : Span)
    {rest : List Token} (hrest : ClosesExpr rest) :
    unaryWith (some level) (⟨.symbol .minus, start⟩ ::
        ⟨.int (String.ofList (Number.digitsOf n)), span⟩ :: rest) =
      .ok (.unary .neg (.literal (.int (Int64.ofNat n)) span) (start.cover span), rest) := by
  rw [unaryWith]
  simp only [current, List.headD_cons, unaryOp?, UnaryOp.ofSymbol?, deeper, hlevel, List.drop_one,
    List.tail_cons, unaryWith_digits inner hn span hrest]
  rfl

end ExprLevel

/-- The least number is the only one whose digits make up no literal. -/
theorem natAbs_lt_iff (n : Int64) : n.toInt.natAbs < Number.twoTo 63 ↔ n ≠ Int64.minValue := by
  have hlow := n.le_toInt
  have hhigh := n.toInt_lt
  have hmin : n = Int64.minValue ↔ n.toInt = -2 ^ 63 := by
    rw [← Int64.toInt_inj, Int64.toInt_minValue]
  have hpower : Number.twoTo 63 = 9223372036854775808 := rfl
  rw [ne_eq, hmin, hpower]
  omega

theorem ofNat_natAbs_of_nonneg {n : Int64} (h : ¬ n.toInt < 0) :
    Int64.ofNat n.toInt.natAbs = n := by
  rw [← Int64.ofInt_eq_ofNat, Int.natAbs_of_nonneg (Int.not_lt.1 h), Int64.ofInt_toInt]

theorem neg_ofNat_natAbs {n : Int64} (h : n.toInt < 0) : -Int64.ofNat n.toInt.natAbs = n := by
  rw [← Int64.ofInt_eq_ofNat, ← Int64.ofInt_neg, Int.ofNat_natAbs_of_nonpos (Int.le_of_lt h),
    Int.neg_neg, Int64.ofInt_toInt]

/-- **The tokens of a number are parsed as it**, unless it is the least one. -/
theorem expression_number {n : Int64} (hn : n ≠ Int64.minValue) (room : Nat)
    {ts rest : List Token} (hts : ts.map Token.kind = numberKinds n.toInt) (hrest : ClosesExpr rest) :
    ∃ e, (ExprLevel.ofRoom (room + 2)).expression (ts ++ rest) = .ok (e, rest) ∧
      IsNumber e n := by
  have hdigits := (natAbs_lt_iff n).2 hn
  have hbinary {e : Expr} (h : ExprLevel.unaryWith (some (ExprLevel.ofRoom room)) (ts ++ rest) =
      .ok (e, rest)) : (ExprLevel.ofRoom (room + 2)).expression (ts ++ rest) = .ok (e, rest) := by
    show (ExprLevel.unaryWith (some (ExprLevel.ofRoom room)) (ts ++ rest) >>= fun r ↦
      ExprLevel.operatorsWith (some (ExprLevel.ofRoom room)) 0 r.1 r.2) = _
    rw [h]
    exact ExprLevel.operatorsWith_eq (hrest.stops 0)
  rw [numberKinds] at hts
  split at hts
  · rename_i hneg
    obtain ⟨start, us, rfl, hus⟩ := exists_of_map_kind hts
    obtain ⟨span, us, rfl, hnil⟩ := exists_of_map_kind hus
    obtain rfl := List.map_eq_nil_iff.1 hnil
    refine ⟨_, hbinary (ExprLevel.unaryWith_minus _ (ExprLevel.below room) ?_ hdigits start span
      hrest), ?_⟩
    · rw [ExprLevel.ofRoom_eq_above]
      rfl
    · have h := IsNumber.negated (Int64.ofNat n.toInt.natAbs) span (start.cover span)
      rwa [neg_ofNat_natAbs hneg] at h
  · rename_i hneg
    obtain ⟨span, us, rfl, hnil⟩ := exists_of_map_kind hts
    obtain rfl := List.map_eq_nil_iff.1 hnil
    refine ⟨_, hbinary (ExprLevel.unaryWith_digits _ hdigits span hrest), ?_⟩
    rw [ofNat_natAbs_of_nonneg hneg]
    exact .literal n span

end Dossier.Script
