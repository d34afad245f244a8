import Dossier.Proofs.Parse.Accepts
import Dossier.Proofs.Parse.Tokens
import Mathlib.Data.List.Nodup

/-!
# The names that stand in a body

Every name of a body that can be parsed is a token of its own, so that its place tells it from all
others.

* `Occurrence` is a name where it stands, with two things that can be said of it: it stands as a
  value and is `unknown` there, and it is `hidden`, in a part of the tree that cannot be what it is
  given for.
* `Expr.occurrences`, `Stmt.occurrences` and `occurrencesOfBody` list the names of a tree, in the
  order of the text.  They know the names in scope, but nothing of binding.
* `StmtPhrase.Derives.places` says that these are names of tokens, one each, and
  `Occurrence.eq_of_span_eq` that no two of them are at one place.
-/

set_option autoImplicit false

namespace Dossier.Script

open Text (Span)

/-! ## Occurrences -/

/-- A name where it stands. -/
structure Occurrence where
  /-- The name. -/
  name : Name
  /-- It stands as a value, and no parameter or local in scope has it. -/
  unknown : Bool
  /-- It stands in something that cannot be what it is given for. -/
  hidden : Bool
  deriving DecidableEq, Repr

/-- Is this a member? -/
def Expr.isMember : Expr → Bool
  | .member _ _ _ => true
  | _ => false

/-- Is this a name? -/
def Expr.isName : Expr → Bool
  | .name _ => true
  | _ => false

/-- Names that do not stand as values. -/
def plainOccurrences (hidden : Bool) (names : List Name) : List Occurrence :=
  names.map fun n ↦ ⟨n, false, hidden⟩

mutual

/-- The names of an expression, where the names in `known` are in scope.  A name with points behind
it can be that of a class, and one that is called that of a method, so that these do not stand as
values.  What is in front of a point or is called otherwise is hidden. -/
def Expr.occurrences (known : List String) (hidden : Bool) : Expr → List Occurrence
  | .literal _ _ => []
  | .name n => [⟨n, !known.contains n.text, hidden⟩]
  | .self _ => []
  | .unary _ e _ => e.occurrences known hidden
  | .binary _ l r _ => l.occurrences known hidden ++ r.occurrences known hidden
  | .member base m _ =>
    (match base.path? with
      | some path => plainOccurrences hidden path
      | none => base.occurrences known true) ++ [⟨m, false, hidden⟩]
  | .call callee args _ =>
    (match callee.path? with
      | some path => plainOccurrences hidden path
      | none => callee.occurrences known (hidden || !callee.isMember)) ++
    occurrencesOfArgs known hidden args

/-- The names of arguments. -/
def occurrencesOfArgs (known : List String) (hidden : Bool) : List Expr → List Occurrence
  | [] => []
  | arg :: args => arg.occurrences known hidden ++ occurrencesOfArgs known hidden args

end

/-- The names of what is called. -/
def Expr.calleeOccurrences (known : List String) (hidden : Bool) (callee : Expr) :
    List Occurrence :=
  match callee.path? with
  | some path => plainOccurrences hidden path
  | none => callee.occurrences known (hidden || !callee.isMember)

theorem Expr.occurrences_call (known : List String) (hidden : Bool) (callee : Expr)
    (args : List Expr) (span : Span) :
    (call callee args span).occurrences known hidden =
      callee.calleeOccurrences known hidden ++ occurrencesOfArgs known hidden args := by
  rw [occurrences, calleeOccurrences]

/-- The names of an expression that need not be there. -/
def occurrencesOfOption (known : List String) (hidden : Bool) : Option Expr → List Occurrence
  | none => []
  | some e => e.occurrences known hidden

/-- The names in scope after a statement. -/
def Stmt.known (known : List String) : Stmt → List String
  | .declare name _ _ _ => name.text :: known
  | _ => known

/-- The names of a type that need not be there. -/
def namesOfType : Option TypeName → List Name
  | none => []
  | some type => type.segments

mutual

/-- The names of a statement, in a method that has a result or not (`void`).  What is given back by
a method without a result is hidden, and so is what is assigned to and is no name. -/
def Stmt.occurrences (void : Bool) (known : List String) : Stmt → List Occurrence
  | .declare name type init _ =>
    plainOccurrences false (namesOfType type) ++
      (plainOccurrences false [name] ++ occurrencesOfOption known false init)
  | .assign _ target value _ =>
    target.occurrences known (!target.isName) ++ value.occurrences known false
  | .giveBack value _ => occurrencesOfOption known void value
  | .branch condition body _ otherwise _ =>
    condition.occurrences known false ++
      (occurrencesOfBody void known body ++ otherwise.occurrences void known)
  | .loop condition body _ _ =>
    condition.occurrences known false ++ occurrencesOfBody void known body
  | .throw value _ => value.occurrences known false
  | .block body _ => occurrencesOfBody void known body
  | .expr e _ => e.occurrences known false

/-- The names of what follows the block of a branch. -/
def Otherwise.occurrences (void : Bool) (known : List String) : Otherwise → List Occurrence
  | .nothing => []
  | .block body _ => occurrencesOfBody void known body
  | .branch condition body _ otherwise _ =>
    condition.occurrences known false ++
      (occurrencesOfBody void known body ++ otherwise.occurrences void known)

/-- The names of statements in a row: what one declares is in scope for the others. -/
def occurrencesOfBody (void : Bool) (known : List String) : List Stmt → List Occurrence
  | [] => []
  | s :: rest => s.occurrences void known ++ occurrencesOfBody void (s.known known) rest

end

/-! ## What is hidden -/

theorem hidden_plain (names : List Name) : ∀ o ∈ plainOccurrences true names, o.hidden = true := by
  intro o ho
  obtain ⟨n, -, rfl⟩ := List.mem_map.1 ho
  rfl

mutual

/-- All names of something hidden are hidden. -/
theorem Expr.hidden_occurrences (known : List String) : (e : Expr) →
    ∀ o ∈ e.occurrences known true, o.hidden = true
  | .literal _ _ => nofun
  | .name _ => by simp [Expr.occurrences]
  | .self _ => nofun
  | .unary _ e _ => e.hidden_occurrences known
  | .binary _ l r _ =>
    List.forall_mem_append.2 ⟨l.hidden_occurrences known, r.hidden_occurrences known⟩
  | .member base m _ => by
    rw [Expr.occurrences, List.forall_mem_append]
    refine ⟨?_, by simp⟩
    split
    · exact hidden_plain _
    · exact base.hidden_occurrences known
  | .call callee args _ => by
    rw [Expr.occurrences, List.forall_mem_append]
    refine ⟨?_, hidden_occurrencesOfArgs known args⟩
    split
    · exact hidden_plain _
    · exact callee.hidden_occurrences known

theorem hidden_occurrencesOfArgs (known : List String) : (args : List Expr) →
    ∀ o ∈ occurrencesOfArgs known true args, o.hidden = true
  | [] => nofun
  | arg :: args =>
    List.forall_mem_append.2 ⟨arg.hidden_occurrences known, hidden_occurrencesOfArgs known args⟩

end

/-- No name in sight is an unknown value. -/
def Unmarked (os : List Occurrence) : Prop := ∀ o ∈ os, o.unknown = true → o.hidden = true

theorem unmarked_plain (hidden : Bool) (names : List Name) :
    Unmarked (plainOccurrences hidden names) := by
  intro o ho hu
  obtain ⟨n, -, rfl⟩ := List.mem_map.1 ho
  cases hu

/-- A member hides what is in front of it, or has the names of a path there. -/
theorem Expr.unmarked_member (known : List String) (base : Expr) (m : Name) (span : Span) :
    Unmarked ((member base m span).occurrences known false) := by
  rw [Unmarked, occurrences, List.forall_mem_append]
  refine ⟨?_, by simp⟩
  split
  · exact unmarked_plain _ _
  · exact fun o ho _ ↦ base.hidden_occurrences known o ho

/-- What is called is no unknown value in sight. -/
theorem Expr.unmarked_callee (known : List String) (callee : Expr) :
    Unmarked (callee.calleeOccurrences known false) := by
  rw [calleeOccurrences]
  split
  · exact unmarked_plain _ _
  · cases callee with
    | member base m span => exact unmarked_member known base m span
    | _ => exact fun o ho _ ↦ hidden_occurrences known _ o ho

/-! ## Their places -/

/-- The places of names. -/
def placesOf (os : List Occurrence) : List Span := os.map fun o ↦ o.name.span

@[simp] theorem placesOf_nil : placesOf [] = [] := rfl

@[simp] theorem placesOf_cons (o : Occurrence) (os : List Occurrence) :
    placesOf (o :: os) = o.name.span :: placesOf os := rfl

@[simp] theorem placesOf_append (os os' : List Occurrence) :
    placesOf (os ++ os') = placesOf os ++ placesOf os' := List.map_append

@[simp] theorem placesOf_plain (hidden : Bool) (names : List Name) :
    placesOf (plainOccurrences hidden names) = names.map Name.span := by
  simp [placesOf, plainOccurrences]

/-- The places of tokens. -/
def spansOf (ts : List Token) : List Span := ts.map Token.span

@[simp] theorem spansOf_cons (t : Token) (ts : List Token) :
    spansOf (t :: ts) = t.span :: spansOf ts := rfl

@[simp] theorem spansOf_append (ts us : List Token) :
    spansOf (ts ++ us) = spansOf ts ++ spansOf us := List.map_append

/-- The names of a path are those of its expression. -/
theorem Expr.places_of_path? {known : List String} : (e : Expr) → {hidden : Bool} →
    {path : List Name} → e.path? = some path →
      placesOf (e.occurrences known hidden) = path.map Name.span
  | .name n, _, _, h => by
    cases h
    simp [occurrences]
  | .member base m _, hidden, _, h => by
    obtain ⟨path, hbase, rfl⟩ := Option.map_eq_some_iff.1 h
    simp [occurrences, hbase]

/-- What is in front of a point or is called has the places of its names, whatever it is. -/
theorem Expr.places_of_base (base : Expr) (known : List String) (hidden hidden' : Bool) :
    placesOf (match base.path? with
      | some path => plainOccurrences hidden path
      | none => base.occurrences known hidden') = placesOf (base.occurrences known hidden') := by
  cases h : base.path? with
  | none => rfl
  | some path =>
    rw [base.places_of_path? h]
    exact placesOf_plain hidden path

/-- The places of the names of what a phrase is, whatever is in scope and whatever is hidden, are
places of its tokens, in the same order. -/
def ExprPhrase.NamesStand (ts : List Token) : ExprPhrase → Prop
  | operators _ e | signed e | suffixed e | operand e =>
    ∀ known hidden, (placesOf (e.occurrences known hidden)).Sublist (spansOf ts)
  | arguments args | moreArguments args =>
    ∀ known hidden, (placesOf (occurrencesOfArgs known hidden args)).Sublist (spansOf ts)

theorem Atom.places {t : Token} {e : Expr} (h : Atom t e) (known : List String) (hidden : Bool) :
    (placesOf (e.occurrences known hidden)).Sublist (spansOf [t]) := by
  cases h <;> simp [Expr.occurrences]

/-- **The names of an expression are tokens**, one each. -/
theorem ExprPhrase.Derives.places {p : ExprPhrase} {ts : List Token} (h : p.Derives ts) :
    p.NamesStand ts := by
  induction h with
  | atom h => exact h.places
  | operand _ ih | suffixed _ ih | signed _ ih | tighter _ ih => exact ih
  | group opening close _ ih =>
    intro known hidden
    rw [spansOf_cons, spansOf_append]
    exact (List.sublist_append_of_sublist_left (ih known hidden)).cons _
  | noArguments | noMoreArguments => exact fun _ _ ↦ List.nil_sublist _
  | @call base args ts us opening close _ _ ih ih' =>
    intro known hidden
    simp only [Expr.occurrences, placesOf_append, base.places_of_base, spansOf_append, spansOf_cons]
    exact (ih known _).append ((List.sublist_append_of_sublist_left (ih' known hidden)).cons _)
  | @member base ts point m _ ih =>
    intro known hidden
    simp only [Expr.occurrences, placesOf_append, base.places_of_base, spansOf_append, spansOf_cons]
    exact (ih known _).append ((List.Sublist.refl _).cons _)
  | unary op sign _ ih => exact fun known hidden ↦ (ih known hidden).cons _
  | binary op place _ _ ih ih' =>
    intro known hidden
    simp only [Expr.occurrences, placesOf_append, spansOf_append, spansOf_cons]
    exact (ih known hidden).append ((ih' known hidden).cons _)
  | arguments _ _ ih ih' =>
    intro known hidden
    simp only [occurrencesOfArgs, placesOf_append, spansOf_append]
    exact (ih known hidden).append (ih' known hidden)
  | moreArguments comma _ _ ih ih' =>
    intro known hidden
    simp only [occurrencesOfArgs, placesOf_append, spansOf_append, spansOf_cons]
    exact ((ih known hidden).append (ih' known hidden)).cons _

theorem Expr.Derives.places {e : Expr} {ts : List Token} (h : e.Derives ts) (known : List String)
    (hidden : Bool) : (placesOf (e.occurrences known hidden)).Sublist (spansOf ts) :=
  ExprPhrase.Derives.places h known hidden

theorem InitDerives.places {init : Option Expr} {ts : List Token} (h : InitDerives init ts)
    (known : List String) (hidden : Bool) :
    (placesOf (occurrencesOfOption known hidden init)).Sublist (spansOf ts) := by
  cases h with
  | none => exact List.nil_sublist _
  | some _ h => exact (h.places known hidden).cons _

theorem PathDerives.places {path : List Name} {ts : List Token} (h : PathDerives path ts) :
    (path.map Name.span).Sublist (spansOf ts) := by
  induction h with
  | single n => exact List.Sublist.refl _
  | cons n point _ ih => exact (ih.cons _).cons_cons _

/-- The same for statements. -/
def StmtPhrase.NamesStand (void : Bool) (ts : List Token) : StmtPhrase → Prop
  | statement _ s => ∀ known, (placesOf (s.occurrences void known)).Sublist (spansOf ts)
  | statements _ body =>
    ∀ known, (placesOf (occurrencesOfBody void known body)).Sublist (spansOf ts)
  | block b => ∀ known, (placesOf (occurrencesOfBody void known b.body)).Sublist (spansOf ts)
  | branch b => ∀ known,
    (placesOf (b.condition.occurrences known false ++ (occurrencesOfBody void known b.block.body ++
      b.otherwise.occurrences void known))).Sublist (spansOf ts)
  | otherwise o => ∀ known, (placesOf (o.occurrences void known)).Sublist (spansOf ts)

/-- **The names of a statement are tokens**, one each. -/
theorem StmtPhrase.Derives.places (void : Bool) {p : StmtPhrase} {ts : List Token}
    (h : p.Derives ts) : p.NamesStand void ts := by
  induction h with
  | untyped start mark name h _ =>
    intro known
    simp only [Stmt.occurrences, placesOf_append, placesOf_plain, spansOf_append, spansOf_cons]
    exact (((List.sublist_append_of_sublist_left (h.places known false)).cons _).cons_cons _).cons _
  | typed name hpath hinit _ =>
    intro known
    simp only [Stmt.occurrences, placesOf_append, placesOf_plain, spansOf_append, spansOf_cons]
    refine hpath.places.append (.cons_cons _ ?_)
    exact List.sublist_append_of_sublist_left (hinit.places known false)
  | giveBackNothing => exact fun _ ↦ List.nil_sublist _
  | giveBack start h _ =>
    intro known
    rw [spansOf_cons, spansOf_append]
    exact (List.sublist_append_of_sublist_left (h.places known void)).cons _
  | throwing start h _ =>
    intro known
    rw [spansOf_cons, spansOf_append]
    exact (List.sublist_append_of_sublist_left (h.places known false)).cons _
  | expr h _ =>
    intro known
    rw [spansOf_append]
    exact List.sublist_append_of_sublist_left (h.places known false)
  | assign op mark h h' _ =>
    intro known
    simp only [Stmt.occurrences, placesOf_append, spansOf_append, spansOf_cons]
    refine (h.places known _).append (.cons _ ?_)
    exact List.sublist_append_of_sublist_left (h'.places known false)
  | ofBranch _ ih | ofBlock _ ih => exact ih
  | loop start opening close h _ ih =>
    intro known
    simp only [Stmt.occurrences, placesOf_append, spansOf_append, spansOf_cons]
    exact (((h.places known false).append ((ih known).cons _)).cons _).cons _
  | branch start opening close h _ _ ih ih' =>
    intro known
    simp only [placesOf_append, spansOf_append, spansOf_cons]
    exact (((h.places known false).append (((ih known).append (ih' known)).cons _)).cons _).cons _
  | nothing | nil => exact fun _ ↦ List.nil_sublist _
  | otherwiseBlock word _ ih | otherwiseBranch word _ ih => exact fun known ↦ (ih known).cons _
  | block opening close _ ih =>
    intro known
    rw [spansOf_cons, spansOf_append]
    exact (List.sublist_append_of_sublist_left (ih known)).cons _
  | single _ ih =>
    intro known
    simpa only [occurrencesOfBody, List.append_nil] using ih known
  | cons _ _ ih ih' =>
    intro known
    simp only [occurrencesOfBody, placesOf_append, spansOf_append]
    exact (ih known).append (ih' _)

/-! ## No two names at one place -/

/-- The tokens of a body, in front of the end, stand at different places. -/
theorem nodup_spansOf {source : String} {front : List Token} {span : Span}
    (h : tokenize source = front ++ [⟨.done, span⟩]) : (spansOf front).Nodup := by
  obtain ⟨front', htokens, htile⟩ := (laid_tokensFrom 0 source.toList).tile [] rfl
  obtain ⟨rfl, -⟩ := List.append_inj' (h.symm.trans htokens) rfl
  refine List.pairwise_map.2 (htile.ordered.imp_of_mem fun {t t'} ht _ hle heq ↦ ?_)
  have hlt := (htile.tokens t ht).2.nonempty
  rw [← heq] at hle
  exact absurd hle (Nat.not_le.2 hlt)

/-- **Names at one place are one name**, in a body that can be parsed. -/
theorem Occurrence.eq_of_span_eq {source : String} (h : (parse source).errors = []) {void : Bool}
    {known : List String} {o o' : Occurrence}
    (ho : o ∈ occurrencesOfBody void known (parse source).statements)
    (ho' : o' ∈ occurrencesOfBody void known (parse source).statements)
    (hspan : o.name.span = o'.name.span) : o = o' := by
  obtain ⟨front, span, htokens, hderives⟩ := bodyDerives_of_errors h
  have hnodup := (nodup_spansOf htokens).sublist (hderives.places void known)
  exact List.inj_on_of_nodup_map hnodup ho ho' hspan

end Dossier.Script
