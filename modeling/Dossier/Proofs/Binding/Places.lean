import Dossier.Proofs.Parse.StmtPlaces
import Dossier.Script.Binding

/-!
# Where problems stand

Each problem that is noted of a body is noted at a place of the tree, or where the names of a path are
covered, so that its place fits the text if all places of the tree do.

* `NotesFit` says so of all problems that were found on the way to something.
* `Surroundings.notesFit_bindExpr` states it for expressions, `Surroundings.notesFit_bindStmt` for
  statements, by induction on the tree, and `Surroundings.notesFit_bindBody` is the result.
-/

set_option autoImplicit false

namespace Dossier.Script

open Text (Span)

variable {text : List Char}

/-! ## Problems in expressions -/

/-- The places of all problems that were found fit the text. -/
def NotesFit {α : Type} (text : List Char) (x : Found α) : Prop := ∀ p ∈ x.notes, p.span.Fits text

namespace NotesFit

variable {α β : Type} {s : Span}

protected theorem pure (a : α) : NotesFit text (pure a : Found α) := nofun

protected theorem bind {x : Found α} {f : α → Found β} (hx : NotesFit text x)
    (hf : ∀ a, NotesFit text (f a)) : NotesFit text (x >>= f) :=
  List.forall_mem_append.2 ⟨hx, hf x.value⟩

protected theorem found (problem : Problem) (hs : s.Fits text) : NotesFit text (found problem s) :=
  List.forall_mem_singleton.2 hs

protected theorem foundIf (condition : Bool) (problem : Problem) (hs : s.Fits text) :
    NotesFit text (foundIf condition problem s) := by
  cases condition with
  | false => exact nofun
  | true => exact List.forall_mem_singleton.2 hs

protected theorem instead (problem : Problem) (hs : s.Fits text) : NotesFit text (instead problem s) :=
  (NotesFit.found problem hs).bind fun _ ↦ .pure _

end NotesFit

/-- The names of a path stand where the tree has them. -/
theorem Expr.fits_of_path? : (e : Expr) → {path : List Name} → e.path? = some path →
    e.Fits text → ∀ n ∈ path, n.span.Fits text
  | .name n, _, hpath, h => by
    cases hpath
    exact List.forall_mem_singleton.2 h
  | .member base m _, _, hpath, h => by
    obtain ⟨path, hbase, rfl⟩ := Option.map_eq_some_iff.1 hpath
    exact List.forall_mem_append.2 ⟨base.fits_of_path? hbase h.1, List.forall_mem_singleton.2 h.2.1⟩

namespace Surroundings

variable (s : Surroundings)

section Calls

variable {name : Name} {span : Span} (hname : name.span.Fits text) (hspan : span.Fits text)
include hname hspan

theorem notesFit_callMethod (classIndex : Nat) (args : List BoundExpr) (form : CallForm) :
    NotesFit text (s.callMethod classIndex name args span form) := by
  unfold callMethod
  split
  · exact .instead _ hname
  · split
    · exact .instead _ hname
    · split
      · exact (NotesFit.foundIf _ _ hname).bind fun _ ↦ (NotesFit.foundIf _ _ hname).bind fun _ ↦
          (NotesFit.foundIf _ _ hname).bind fun _ ↦ (NotesFit.foundIf _ _ hspan).bind fun _ ↦ .pure _
      · exact .instead _ hname

theorem notesFit_callLibrary (modules : List String) (className : String) (args : List BoundExpr) :
    NotesFit text (callLibrary modules className name args span) := by
  unfold callLibrary
  split
  · exact .instead _ hname
  · split
    · exact .pure _
    · exact .instead _ hspan

theorem notesFit_callPath (scopes : Scopes) {path : List Name}
    (hpath : ∀ n ∈ path, n.span.Fits text) (args : List BoundExpr) :
    NotesFit text (s.callPath scopes path name args span) := by
  unfold callPath
  split
  · exact .instead _ hspan
  · rename_i first rest
    obtain ⟨hfirst, hrest⟩ := List.forall_mem_cons.1 hpath
    split
    · exact .instead _ hname
    · split
      · exact s.notesFit_callMethod hname hspan _ args _
      · split
        · exact notesFit_callLibrary hname hspan _ _ args
        · split
          · exact .instead _ hfirst
          · exact .instead _ (fits_foldl hfirst hrest)

end Calls

theorem notesFit_callExpr (scopes : Scopes) {callee : Expr} (h : callee.Fits text)
    (args : List BoundExpr) {span : Span} (hspan : span.Fits text) :
    NotesFit text (s.callExpr scopes callee args span) := by
  unfold callExpr
  split
  · exact s.notesFit_callMethod h hspan _ args _
  · exact (NotesFit.foundIf _ _ h.1).bind fun _ ↦ s.notesFit_callMethod h.2.1 hspan _ args _
  · rename_i base _ _ _
    split
    · rename_i path hpath
      exact s.notesFit_callPath h.2.1 hspan scopes (base.fits_of_path? hpath h.1) args
    · exact .instead _ h.span
  · exact .instead _ h.span

mutual

/-- **The problems of an expression are in it.** -/
theorem notesFit_bindExpr (scopes : Scopes) : (e : Expr) → e.Fits text →
    NotesFit text (s.bindExpr scopes e)
  | .literal _ _, _ => .pure _
  | .name n, h => by
    rw [bindExpr]
    split
    · exact .pure _
    · exact .instead _ h
  | .self _, h => (NotesFit.foundIf _ _ h).bind fun _ ↦ .pure _
  | .unary _ e _, h => (notesFit_bindExpr scopes e h.1).bind fun _ ↦ .pure _
  | .binary _ l r _, h => (notesFit_bindExpr scopes l h.1).bind fun _ ↦
    (notesFit_bindExpr scopes r h.2.1).bind fun _ ↦ .pure _
  | .member _ _ _, h => .instead _ h.2.1
  | .call _ args _, h => (notesFit_bindArgs scopes args h.2.1).bind fun args ↦
    s.notesFit_callExpr scopes h.1 args h.2.2

theorem notesFit_bindArgs (scopes : Scopes) : (args : List Expr) → ArgsFit text args →
    NotesFit text (s.bindArgs scopes args)
  | [], _ => .pure _
  | arg :: args, h => (notesFit_bindExpr scopes arg h.1).bind fun _ ↦
    (notesFit_bindArgs scopes args h.2).bind fun _ ↦ .pure _

end

theorem notesFit_bindExpr? (scopes : Scopes) {e : Option Expr} (h : ∀ e' ∈ e, e'.Fits text) :
    NotesFit text (s.bindExpr? scopes e) := by
  cases e with
  | none => exact .pure _
  | some e => exact (s.notesFit_bindExpr scopes e (h e rfl)).bind fun _ ↦ .pure _

/-! ## Problems in statements -/

theorem notesFit_bindTypeName? {type : Option TypeName} (h : ∀ t ∈ type, t.Fits text) :
    NotesFit text (bindTypeName? type) := by
  cases type with
  | none => exact .pure _
  | some t =>
    have hspan := (h t rfl).span
    refine NotesFit.bind ?_ fun _ ↦ .pure _
    rw [bindTypeName]
    split
    · exact (NotesFit.found _ hspan).bind fun _ ↦ .pure _
    · exact .pure _
    · exact (NotesFit.found _ hspan).bind fun _ ↦ .pure _

theorem notesFit_bindDeclare (d : Declared) {name : Name} {type : Option TypeName}
    {init : Option Expr} (hname : name.span.Fits text) (htype : ∀ t ∈ type, t.Fits text)
    (hinit : ∀ e ∈ init, e.Fits text) : NotesFit text (s.bindDeclare d name type init) :=
  (notesFit_bindTypeName? htype).bind fun _ ↦ (s.notesFit_bindExpr? d.scopes hinit).bind fun _ ↦
    (NotesFit.foundIf _ _ hname).bind fun _ ↦ .pure _

theorem notesFit_bindAssign (scopes : Scopes) (op : AssignOp) {target value : Expr}
    (htarget : target.Fits text) (hvalue : value.Fits text) :
    NotesFit text (s.bindAssign scopes op target value) := by
  refine (s.notesFit_bindExpr scopes value hvalue).bind fun _ ↦ ?_
  split
  · split
    · exact .pure _
    · exact (NotesFit.found _ htarget).bind fun _ ↦ .pure _
  · exact (NotesFit.found _ htarget.span).bind fun _ ↦ .pure _

theorem notesFit_bindGiveBack (scopes : Scopes) {value : Option Expr} {span : Span}
    (hvalue : ∀ e ∈ value, e.Fits text) (hspan : span.Fits text) :
    NotesFit text (s.bindGiveBack scopes value span) := by
  unfold bindGiveBack
  split
  · exact (NotesFit.found _ (hvalue _ rfl).span).bind fun _ ↦ .pure _
  · exact (NotesFit.found _ hspan).bind fun _ ↦ .pure _
  · exact (s.notesFit_bindExpr? scopes hvalue).bind fun _ ↦ .pure _

mutual

/-- **The problems of a statement are in it.** -/
theorem notesFit_bindStmt : (stmt : Stmt) → (d : Declared) → stmt.Fits text →
    NotesFit text (s.bindStmt d stmt)
  | .declare _ _ _ _, d, h => s.notesFit_bindDeclare d h.1 h.2.1 h.2.2.1
  | .assign op _ _ _, d, h =>
    (s.notesFit_bindAssign d.scopes op h.1 h.2.1).bind fun _ ↦ .pure _
  | .giveBack _ _, d, h => (s.notesFit_bindGiveBack d.scopes h.1 h.2).bind fun _ ↦ .pure _
  | .branch c body _ o _, d, h => (s.notesFit_bindExpr d.scopes c h.1).bind fun _ ↦
    (notesFit_bindStmts body d.enter h.2.1).bind fun x ↦
      (notesFit_bindOtherwise o (x.2.leaveTo d) h.2.2.2.1).bind fun _ ↦ .pure _
  | .loop c body _ _, d, h => (s.notesFit_bindExpr d.scopes c h.1).bind fun _ ↦
    (notesFit_bindStmts body d.enter h.2.1).bind fun _ ↦ .pure _
  | .throw e _, d, h => (s.notesFit_bindExpr d.scopes e h.1).bind fun _ ↦ .pure _
  | .block body _, d, h => (notesFit_bindStmts body d.enter h.1).bind fun _ ↦ .pure _
  | .expr e _, d, h => (NotesFit.foundIf _ _ h.2).bind fun _ ↦
    (s.notesFit_bindExpr d.scopes e h.1).bind fun _ ↦ .pure _

theorem notesFit_bindOtherwise : (o : Otherwise) → (d : Declared) → o.Fits text →
    NotesFit text (s.bindOtherwise d o)
  | .nothing, _, _ => .pure _
  | .block body _, d, h => (notesFit_bindStmts body d.enter h.1).bind fun _ ↦ .pure _
  | .branch c body _ o _, d, h => (s.notesFit_bindExpr d.scopes c h.1).bind fun _ ↦
    (notesFit_bindStmts body d.enter h.2.1).bind fun x ↦
      (notesFit_bindOtherwise o (x.2.leaveTo d) h.2.2.2.1).bind fun _ ↦ .pure _

theorem notesFit_bindStmts : (body : List Stmt) → (d : Declared) → BodyFits text body →
    NotesFit text (s.bindStmts d body)
  | [], _, _ => .pure _
  | stmt :: rest, d, h => (notesFit_bindStmt stmt d h.1).bind fun x ↦
    (notesFit_bindStmts rest x.2 h.2).bind fun _ ↦ .pure _

end

/-- The problems of a body are in it. -/
theorem notesFit_bindBody {statements : List Stmt} (h : BodyFits text statements) :
    NotesFit text (s.bindBody statements) :=
  (s.notesFit_bindStmts statements _ h).bind fun _ ↦ .pure _

end Surroundings

end Dossier.Script
