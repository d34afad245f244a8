import Dossier.Proofs.Parse.Braces
import Dossier.Proofs.Parse.ExprPlaces
import Dossier.Proofs.Parse.StmtSound
import Dossier.Proofs.Parse.Tokens

/-!
# Where statements stand

All places in the tree of a statement fit the text that its tokens fit, and so does the place of the
token that stands in its way, as it is with expressions.

* `StmtLevel.placed_ofRoom` states it for the parsers of a level.
* `fits_parse` is the result for bodies: the tokens of a body fit it (`fits_tokenize`), and reading goes
  on with some of them after an error, so that all statements and errors have places in the body.
-/

set_option autoImplicit false

namespace Dossier.Script

open Text (Span)

/-! ## Places of trees -/

/-- All places in the name of a type fit the text. -/
structure TypeName.Fits (text : List Char) (t : TypeName) : Prop where
  segments : ∀ n ∈ t.segments, n.span.Fits text
  span : t.span.Fits text

mutual

/-- All places in the statement fit the text. -/
def Stmt.Fits (text : List Char) : Stmt → Prop
  | .declare name type init s =>
    name.span.Fits text ∧ (∀ t ∈ type, t.Fits text) ∧ (∀ e ∈ init, e.Fits text) ∧ s.Fits text
  | .assign _ target value s => target.Fits text ∧ value.Fits text ∧ s.Fits text
  | .giveBack value s => (∀ e ∈ value, e.Fits text) ∧ s.Fits text
  | .branch c body bodySpan o s =>
    c.Fits text ∧ BodyFits text body ∧ bodySpan.Fits text ∧ o.Fits text ∧ s.Fits text
  | .loop c body bodySpan s => c.Fits text ∧ BodyFits text body ∧ bodySpan.Fits text ∧ s.Fits text
  | .throw e s => e.Fits text ∧ s.Fits text
  | .block body s => BodyFits text body ∧ s.Fits text
  | .expr e s => e.Fits text ∧ s.Fits text

/-- All places in what follows the block of a branch fit the text. -/
def Otherwise.Fits (text : List Char) : Otherwise → Prop
  | .nothing => True
  | .block body s => BodyFits text body ∧ s.Fits text
  | .branch c body bodySpan o s =>
    c.Fits text ∧ BodyFits text body ∧ bodySpan.Fits text ∧ o.Fits text ∧ s.Fits text

/-- All places in the statements fit the text. -/
def BodyFits (text : List Char) : List Stmt → Prop
  | [] => True
  | s :: rest => s.Fits text ∧ BodyFits text rest

end

/-- All places in the block fit the text. -/
structure Block.Fits (text : List Char) (b : Block) : Prop where
  body : BodyFits text b.body
  span : b.span.Fits text

/-- All places in the branch fit the text. -/
structure Branch.Fits (text : List Char) (b : Branch) : Prop where
  condition : b.condition.Fits text
  block : b.block.Fits text
  otherwise : b.otherwise.Fits text
  span : b.span.Fits text

variable {text : List Char}

theorem Otherwise.Fits.span {o : Otherwise} (h : o.Fits text) {s : Span} (hs : o.span? = some s) :
    s.Fits text := by
  cases o with
  | nothing => cases hs
  | block =>
    cases hs
    exact h.2
  | branch =>
    cases hs
    exact h.2.2.2.2

/-- The names of a type are among the tokens. -/
theorem PathDerives.fits {path : List Name} {ts : List Token} (h : PathDerives path ts)
    (hts : TokensFit text ts) : ∀ n ∈ path, n.span.Fits text := by
  induction h with
  | single n => exact List.forall_mem_singleton.2 hts.head
  | cons n point _ ih => exact List.forall_mem_cons.2 ⟨hts.head, ih hts.tail.tail⟩

namespace StmtLevel

/-- The place of some names fits if those of the names do. -/
theorem fits_coverNames {names : List Name} (h : ∀ n ∈ names, n.span.Fits text) :
    (coverNames names).Fits text := by
  cases names with
  | nil => exact .zero text
  | cons first rest =>
    obtain ⟨hfirst, hrest⟩ := List.forall_mem_cons.1 h
    exact fits_foldl hfirst hrest

/-! ## Simple statements -/

theorem within_takeEnd : StaysWithin text (fun _ ↦ True) takeEnd := by
  intro ts hts
  rw [takeEnd]
  split
  · exact .ok trivial hts.drop_one
  · split
    · exact .ok trivial hts
    · exact within_complain _ ts hts

/-- The end of a simple statement, and then its tree. -/
theorem within_end {s : Stmt} (hs : s.Fits text) {ts : List Token} (hts : TokensFit text ts) :
    Within text (Stmt.Fits text) (takeEnd ts >>= fun taken ↦ Except.ok (s, taken.2)) :=
  (within_takeEnd ts hts).bind fun _ _ _ hus ↦ .ok hs hus

/-- The names of a declaration are among the tokens. -/
theorem fits_declarationHead? {ts rest : List Token} {segments : List Name} {name : Name}
    (h : declarationHead? ts = some (segments, name, rest)) (hts : TokensFit text ts) :
    (∀ n ∈ segments, n.span.Fits text) ∧ name.span.Fits text ∧ TokensFit text rest := by
  obtain ⟨us, hus, rfl⟩ := declarationHead?_eq_some h
  obtain ⟨hpath, hbehind⟩ := List.forall_mem_append.1 hts
  exact ⟨hus.fits hpath, TokensFit.head hbehind, TokensFit.tail hbehind⟩

section Simple

variable {exprs : ExprLevel} (he : StaysWithin text (Expr.Fits text) exprs.expression)
include he

theorem within_untyped {start : Span} (hstart : start.Fits text) :
    StaysWithin text (Stmt.Fits text) (untyped exprs start) := by
  intro ts hts
  refine (within_takeName ts hts).bind fun name ts hname hts ↦ ?_
  refine (within_takeSymbol _ ts hts).bind fun _ ts _ hts ↦ ?_
  refine (he ts hts).bind fun init ts hinit hts ↦ ?_
  refine within_end ?_ hts
  exact ⟨hname, by simp, by simpa, hstart.cover hinit.span⟩

theorem within_typed {segments : List Name} {name : Name}
    (hsegments : ∀ n ∈ segments, n.span.Fits text) (hname : name.span.Fits text) :
    StaysWithin text (Stmt.Fits text) (typed exprs segments name) := by
  intro ts hts
  have htype := fits_coverNames hsegments
  have hfull : ∀ t ∈ some (⟨segments, coverNames segments⟩ : TypeName), t.Fits text := by
    simpa using TypeName.Fits.mk hsegments htype
  rw [typed]
  split
  · refine (he _ hts.drop_one).bind fun init ts hinit hts ↦ ?_
    refine within_end ?_ hts
    exact ⟨hname, hfull, by simpa, htype.cover hinit.span⟩
  · refine within_end ?_ hts
    exact ⟨hname, hfull, by simp, htype.cover hname⟩

theorem within_giveBack {start : Span} (hstart : start.Fits text) :
    StaysWithin text (Stmt.Fits text) (giveBack exprs start) := by
  intro ts hts
  rw [giveBack]
  split
  · refine within_end ?_ hts
    exact ⟨by simp, hstart⟩
  · refine (he ts hts).bind fun value ts hvalue hts ↦ ?_
    refine within_end ?_ hts
    exact ⟨by simpa, hstart.cover hvalue.span⟩

theorem within_throwing {start : Span} (hstart : start.Fits text) :
    StaysWithin text (Stmt.Fits text) (throwing exprs start) := by
  intro ts hts
  refine (he ts hts).bind fun value ts hvalue hts ↦ ?_
  refine within_end ?_ hts
  exact ⟨hvalue, hstart.cover hvalue.span⟩

theorem within_assignOrExpr : StaysWithin text (Stmt.Fits text) (assignOrExpr exprs) := by
  intro ts hts
  refine (he ts hts).bind fun e ts hfits hts ↦ ?_
  dsimp only
  split
  · refine (he _ hts.drop_one).bind fun value ts hvalue hts ↦ ?_
    refine within_end ?_ hts
    exact ⟨hfits, hvalue, hfits.span.cover hvalue.span⟩
  · refine within_end ?_ hts
    exact ⟨hfits, hfits.span⟩

theorem within_condition : StaysWithin text (Expr.Fits text) (condition exprs) := by
  intro ts hts
  refine (within_takeSymbol _ ts hts).bind fun _ ts _ hts ↦ ?_
  refine (he ts hts).bind fun e ts hfits hts ↦ ?_
  exact (within_takeSymbol _ ts hts).bind fun _ ts _ hts ↦ .ok hfits hts

end Simple

/-! ## Blocks and branches -/

theorem within_statements {statement : Parser Stmt}
    (hs : StaysWithin text (Stmt.Fits text) statement) (fuel : Nat) :
    StaysWithin text (BodyFits text) (statements statement fuel) := by
  induction fuel with
  | zero => exact fun ts hts ↦ .ok trivial hts
  | succ fuel ih =>
    intro ts hts
    rw [statements]
    split
    · exact .ok trivial hts
    · refine (hs ts hts).bind fun first ts hfirst hts ↦ ?_
      exact (ih ts hts).bind fun more ts hmore hts ↦ .ok ⟨hfirst, hmore⟩ hts

theorem within_braces {statement : Parser Stmt}
    (hs : StaysWithin text (Stmt.Fits text) statement) :
    StaysWithin text (Block.Fits text) (braces statement) := by
  intro ts hts
  refine (within_takeSymbol _ ts hts).bind fun opening ts hopening hts ↦ ?_
  refine (within_statements hs _ ts hts).bind fun body ts hbody hts ↦ ?_
  exact (within_takeSymbol _ ts hts).bind fun close ts hclose hts ↦
    .ok ⟨hbody, hopening.cover hclose⟩ hts

/-- The places that the parsers of a level speak of fit the text. -/
structure Placed (text : List Char) (level : StmtLevel) : Prop where
  exprs : level.exprs.Placed text
  statement : StaysWithin text (Stmt.Fits text) level.statement
  branch : StaysWithin text (Branch.Fits text) level.branch

/-- So do those of the level below, if there is one. -/
def PlacedBelow (text : List Char) (inner : Option StmtLevel) : Prop :=
  ∀ level ∈ inner, level.Placed text

section Level

variable {inner : Option StmtLevel} (hi : PlacedBelow text inner)
include hi

theorem within_deeper {α : Type} {Q : α → Prop} {parser : StmtLevel → Parser α}
    (h : ∀ level : StmtLevel, level.Placed text → StaysWithin text Q (parser level)) :
    StaysWithin text Q (deeper inner parser) := by
  cases inner with
  | none => exact within_complain .tooComplex
  | some level => exact h level (hi level rfl)

theorem within_block : StaysWithin text (Block.Fits text) (block inner) :=
  within_deeper hi fun _ hlevel ↦ within_braces hlevel.statement

theorem within_otherwise : StaysWithin text (Otherwise.Fits text) (otherwise inner) := by
  intro ts hts
  rw [otherwise]
  split
  · split
    · refine Within.bind (within_deeper hi (fun _ hlevel ↦ hlevel.branch) _ hts.drop_one)
        fun b ts hb hts ↦ ?_
      exact .ok ⟨hb.condition, hb.block.body, hb.block.span, hb.otherwise, hb.span⟩ hts
    · refine (within_block hi _ hts.drop_one).bind fun b ts hb hts ↦ ?_
      exact .ok ⟨hb.body, hb.span⟩ hts
  · exact .ok trivial hts

variable {exprs : ExprLevel} (he : StaysWithin text (Expr.Fits text) exprs.expression)
include he

theorem within_branchWith : StaysWithin text (Branch.Fits text) (branchWith exprs inner) := by
  intro ts hts
  have hstart := hts.current
  refine (within_condition he _ hts.drop_one).bind fun c ts hc hts ↦ ?_
  refine (within_block hi ts hts).bind fun b ts hb hts ↦ ?_
  refine (within_otherwise hi ts hts).bind fun o ts ho hts ↦ ?_
  refine .ok ⟨hc, hb, ho, hstart.cover ?_⟩ hts
  cases hspan : o.span? with
  | none => exact hb.span
  | some s => exact ho.span hspan

theorem within_loop {start : Span} (hstart : start.Fits text) :
    StaysWithin text (Stmt.Fits text) (loop exprs inner start) := by
  intro ts hts
  refine (within_condition he ts hts).bind fun c ts hc hts ↦ ?_
  refine (within_block hi ts hts).bind fun b ts hb hts ↦ ?_
  exact .ok ⟨hc, hb.body, hb.span, hstart.cover hb.span⟩ hts

/-! ## The parsers of a level -/

theorem within_statementWith : StaysWithin text (Stmt.Fits text) (statementWith exprs inner) := by
  intro ts hts
  have hstart := hts.current
  rw [statementWith]
  split
  · exact within_untyped he hstart _ hts.drop_one
  · exact within_giveBack he hstart _ hts.drop_one
  · exact within_throwing he hstart _ hts.drop_one
  · refine (within_branchWith hi he ts hts).bind fun b ts hb hts ↦ ?_
    exact .ok ⟨hb.condition, hb.block.body, hb.block.span, hb.otherwise, hb.span⟩ hts
  · exact within_loop hi he hstart _ hts.drop_one
  · refine (within_block hi ts hts).bind fun b ts hb hts ↦ ?_
    exact .ok ⟨hb.body, hb.span⟩ hts
  · exact within_complain _ ts hts
  · exact within_complain _ ts hts
  · cases hhead : declarationHead? ts with
    | none => exact within_assignOrExpr he ts hts
    | some head =>
      obtain ⟨segments, name, rest⟩ := head
      obtain ⟨hsegments, hname, hrest⟩ := fits_declarationHead? hhead hts
      exact within_typed he hsegments hname rest hrest

end Level

/-- **The places of a level fit if those of the next one do.** -/
theorem placed_above {inner : Option StmtLevel} (hi : PlacedBelow text inner) :
    (above inner).Placed text := by
  have hexprs : (ExprLevel.above (inner.map StmtLevel.exprs)).Placed text := by
    refine ExprLevel.placed_above fun exprs hexprs ↦ ?_
    obtain ⟨level, hlevel, rfl⟩ := Option.map_eq_some_iff.1 hexprs
    exact (hi level hlevel).exprs
  exact ⟨hexprs, within_statementWith hi hexprs.expression, within_branchWith hi hexprs.expression⟩

/-- **The places of all levels fit.** -/
theorem placed_ofRoom (text : List Char) (room : Nat) : (ofRoom room).Placed text := by
  induction room with
  | zero => exact placed_above (by simp [PlacedBelow])
  | succ room ih =>
    refine placed_above fun level hlevel ↦ ?_
    obtain rfl := Option.some.inj hlevel
    exact ih

end StmtLevel

/-! ## Bodies -/

/-- All places in the statements and errors of a body fit the text. -/
structure ParsedBody.Fits (text : List Char) (b : ParsedBody) : Prop where
  statements : BodyFits text b.statements
  errors : ∀ e ∈ b.errors, e.span.Fits text

theorem fits_parseStatements (fuel : Nat) {ts : List Token} (hts : TokensFit text ts) :
    (parseStatements fuel ts).Fits text := by
  have hnothing : ParsedBody.Fits text ⟨[], []⟩ := ⟨trivial, by simp⟩
  induction fuel generalizing ts with
  | zero => exact hnothing
  | succ fuel ih =>
    rw [parseStatements]
    split
    · exact hnothing
    have hfirst := (StmtLevel.placed_ofRoom text maxNesting).statement ts hts
    rw [StmtLevel.outermost]
    generalize (StmtLevel.ofRoom maxNesting).statement ts = x at hfirst ⊢
    cases hfirst with
    | ok hs hrest =>
      have hmore := ih hrest
      exact ⟨⟨hs, hmore.statements⟩, hmore.errors⟩
    | error ho =>
      have hmore := ih (hts.of_suffix (afterStatement_suffix 0 ts))
      exact ⟨hmore.statements, List.forall_mem_cons.2 ⟨ho, hmore.errors⟩⟩

/-- **The tokens of a text fit it**, and so does its end. -/
theorem fits_tokenize (source : String) : TokensFit source.toList (tokenize source) := by
  obtain ⟨front, hfront, htile⟩ := (laid_tokensFrom 0 source.toList).tile [] rfl
  rw [List.nil_append] at hfront htile
  have hend := Text.IsBoundary.of_append source.toList []
  rw [List.append_nil] at hend
  rw [tokenize, hfront]
  refine List.forall_mem_append.2 ⟨fun t ht ↦ (htile.tokens t ht).2.fits, ?_⟩
  exact List.forall_mem_singleton.2 ⟨Nat.le_refl _, hend, hend⟩

/-- **All that is read in a body stands in it**, and so do its errors. -/
theorem fits_parse (source : String) : (parse source).Fits source.toList :=
  fits_parseStatements _ (fits_tokenize source)

end Dossier.Script
