import Dossier.Proofs.Parse.Layout

/-!
# Texts that are laid out anew

A text can be laid out anew without a change to what is read of it.

* `Relaid cs ds` is what may be done to a text, read from left to right: a character is kept; blanks in
  front of a line feed are dropped, and spaces are put behind it; and the blanks at the end are
  replaced by line feeds.
* `Plain cs` says that the tokens of a text are such that this leaves them alone: none is invalid, and
  none has a line feed in it.
* Each way for a text to go on has its lemma: behind a token (`Relaid.token`) and behind a gap
  (`Relaid.gap`) what is left of the text is laid out anew as well.  A token keeps its characters, since
  it has none of the places where something is changed in it, and ends where it ended, since what
  follows it is the same up to a blank.
* `Plain.kindsOf_relaid` is the result: the same is read of both texts.
-/

set_option autoImplicit false

namespace Dossier.Script

open Text (AllBlank byteLength isBlank isPlainDigit isNameChar slice)

/-! ## The characters of a token -/

theorem isBlank_of_mem_numberPiece {c : Char} {cs : List Char} (hc : isPlainDigit c = true) :
    ∀ d ∈ c :: cs.take (numberPiece c cs).extra, isBlank d = false := by
  have hdigit {d : Char} (hd : isPlainDigit d = true) : isBlank d = false :=
    Text.isBlank_of_isNameChar (Text.isNameChar_of_isPlainDigit hd)
  have hwhole : ∀ d ∈ cs.takeWhile isPlainDigit, isBlank d = false :=
    fun d hd ↦ hdigit (List.mem_takeWhile_imp hd)
  intro d hd
  rcases List.mem_cons.1 hd with rfl | hd
  · exact hdigit hc
  by_cases hfraction : ∃ e es, cs.dropWhile isPlainDigit = '.' :: e :: es ∧ isPlainDigit e = true
  · obtain ⟨e, es, hes, he⟩ := hfraction
    rw [numberPiece_fraction hes he, take_fraction hes, List.mem_append, List.mem_cons,
      List.mem_cons] at hd
    rcases hd with hd | rfl | rfl | hd
    · exact hwhole d hd
    · decide
    · exact hdigit he
    · exact hdigit (List.mem_takeWhile_imp hd)
  · rw [numberPiece_whole fun e es hes ↦ Bool.eq_false_iff.2 fun he ↦ hfraction ⟨e, es, hes, he⟩,
      take_takeWhile] at hd
    exact hwhole d hd

theorem Symbol.isBlank_of_mem_spelling (mark : Symbol) :
    ∀ d ∈ mark.spelling.toList, isBlank d = false := by
  have hall : mark.spelling.toList.all (! isBlank ·) = true := by cases mark <;> decide +kernel
  simpa using hall

/-- **A token has no blanks**, unless it is a string literal. -/
theorem isBlank_of_mem_piece {c : Char} {cs : List Char} {kind : TokenKind}
    (hkind : (piece c cs).kind = some kind) (hvalid : ∀ text, kind ≠ .invalid text)
    (hstring : ∀ text, kind ≠ .string text) :
    ∀ d ∈ c :: cs.take (piece c cs).extra, isBlank d = false := by
  rw [piece] at hkind ⊢
  split_ifs at hkind ⊢ with hspace hfeed hline hblock hquote hdigit hstart
  · obtain ⟨text, rfl⟩ := exists_invalid_of_commentPiece hkind
    exact absurd rfl (hvalid text)
  · rcases stringPiece_cases cs with ⟨inner, tail, -, -, hpiece⟩ | ⟨n, -, hpiece⟩
    · rw [hpiece] at hkind
      cases hkind
      exact absurd rfl (hstring _)
    · rw [hpiece] at hkind
      cases hkind
      exact absurd rfl (hvalid _)
  · exact isBlank_of_mem_numberPiece hdigit
  · intro d hd
    rcases List.mem_cons.1 hd with rfl | hd
    · exact Text.isBlank_of_isNameChar (Text.isNameChar_of_isNameStart hstart)
    · rw [namePiece, take_takeWhile] at hd
      exact Text.isBlank_of_isNameChar (List.mem_takeWhile_imp hd)
  · have hspells := spells_symbolPiece hkind
    obtain ⟨mark, rfl⟩ | ⟨text, rfl⟩ :
        (∃ mark, kind = .symbol mark) ∨ ∃ text, kind = .invalid text := by
      rw [symbolPiece] at hkind
      split at hkind
      · exact .inl ⟨_, (Option.some.inj hkind).symm⟩
      · split at hkind
        · exact .inl ⟨_, (Option.some.inj hkind).symm⟩
        · exact .inr ⟨_, (Option.some.inj hkind).symm⟩
    · rw [hspells]
      exact mark.isBlank_of_mem_spelling
    · exact absurd rfl (hvalid _)

/-- **A token does not end with a blank.** -/
theorem exists_concat_piece {c : Char} {cs : List Char} {kind : TokenKind}
    (hkind : (piece c cs).kind = some kind) (hvalid : ∀ text, kind ≠ .invalid text) :
    ∃ front d, c :: cs.take (piece c cs).extra = front ++ [d] ∧ isBlank d = false := by
  by_cases hstring : ∃ text, kind = .string text
  · obtain ⟨text, rfl⟩ := hstring
    obtain ⟨inner, hword, -⟩ := spells_piece hkind
    exact ⟨'"' :: inner, '"', hword, by decide⟩
  · have hne := List.cons_ne_nil c (cs.take (piece c cs).extra)
    refine ⟨_, _, (List.dropLast_concat_getLast hne).symm, ?_⟩
    exact isBlank_of_mem_piece hkind hvalid (fun text htext ↦ hstring ⟨text, htext⟩) _
      (List.getLast_mem hne)

/-! ## Tokens and what follows them -/

/-- The text is at its end, or goes on with a blank. -/
def AtBlank (cs : List Char) : Prop := ∀ b, cs.head? = some b → isBlank b = true

theorem atBlank_of_allBlank {cs : List Char} (h : AllBlank cs) : AtBlank cs :=
  fun b hb ↦ h b (List.mem_of_head? hb)

theorem atBlank_append_cons {blanks : List Char} (h : AllBlank blanks) {b : Char}
    (hb : isBlank b = true) (cs : List Char) : AtBlank (blanks ++ b :: cs) := by
  cases blanks with
  | nil =>
    rintro d ⟨⟩
    exact hb
  | cons d ds =>
    rintro e ⟨⟩
    exact h _ (List.mem_cons_self ..)

/-- **What stands behind a blank makes no difference to the token in front of it.** -/
theorem piece_congr {c : Char} {cs rest rest' : List Char} {kind : TokenKind}
    (hrest : AtBlank rest) (hrest' : AtBlank rest')
    (hkind : (piece c (cs ++ rest)).kind = some kind) (hvalid : ∀ text, kind ≠ .invalid text)
    (hends : (piece c (cs ++ rest)).extra ≤ cs.length) :
    piece c (cs ++ rest') = piece c (cs ++ rest) := by
  have halone : piece c cs = piece c (cs ++ rest) := by
    cases rest with
    | nil => rw [List.append_nil]
    | cons b rest => exact piece_of_append (hrest b rfl) hkind hvalid hends
  rw [← halone] at hkind ⊢
  cases rest' with
  | nil => rw [List.append_nil]
  | cons b rest' => exact piece_append (hrest' b rfl) hkind hvalid rest'

/-! ## The layout -/

/-- The second text is the first one laid out anew. -/
inductive Relaid : List Char → List Char → Prop
  | last {blanks feeds : List Char} :
    AllBlank blanks → (∀ c ∈ feeds, c = '\n') → Relaid blanks feeds
  | keep (c : Char) {cs ds : List Char} : Relaid cs ds → Relaid (c :: cs) (c :: ds)
  | feed {blanks indent cs ds : List Char} :
    AllBlank blanks → (∀ c ∈ indent, c = ' ') → Relaid cs ds →
    Relaid (blanks ++ '\n' :: cs) ('\n' :: (indent ++ ds))

/-- Blanks up to a line feed go beyond a text without one. -/
theorem exists_of_append_feed {blanks cs text rest : List Char}
    (h : blanks ++ '\n' :: cs = text ++ rest) (htext : '\n' ∉ text) :
    ∃ more, blanks = text ++ more ∧ rest = more ++ '\n' :: cs := by
  rcases List.append_eq_append_iff.1 h with ⟨middle, rfl, hcs⟩ | ⟨middle, rfl, hrest⟩
  · -- the text would have the line feed, or it ends with the blanks
    cases middle with
    | nil => exact ⟨[], by simp, by simpa using hcs.symm⟩
    | cons c middle =>
      obtain ⟨rfl, -⟩ := List.cons.inj hcs
      exact absurd (by simp) htext
  · exact ⟨middle, rfl, hrest⟩

/-- Blanks up to a line feed are in front of a character that is none. -/
theorem exists_of_append_nonblank {blanks cs text rest : List Char} {d : Char}
    (h : blanks ++ '\n' :: cs = text ++ d :: rest) (hblanks : AllBlank blanks)
    (hd : isBlank d = false) :
    ∃ more, text = blanks ++ '\n' :: more ∧ cs = more ++ d :: rest := by
  have hfeed : '\n' ≠ d := ne_of_isBlank (by decide) hd
  rcases List.append_eq_append_iff.1 h with ⟨middle, rfl, hcs⟩ | ⟨middle, rfl, hrest⟩
  · cases middle with
    | nil => exact absurd (List.cons.inj hcs).1 hfeed
    | cons c middle =>
      obtain ⟨rfl, rfl⟩ := List.cons.inj hcs
      exact ⟨middle, rfl, rfl⟩
  · cases middle with
    | nil => exact absurd (List.cons.inj hrest).1.symm hfeed
    | cons c middle =>
      obtain ⟨rfl, -⟩ := List.cons.inj hrest
      exact absurd (by simp) (hblanks.notMem hd)

namespace Relaid

variable {rest ds : List Char}

theorem append_left (text : List Char) {cs : List Char} (h : Relaid cs ds) :
    Relaid (text ++ cs) (text ++ ds) := by
  induction text with
  | nil => exact h
  | cons c text ih => exact .keep c ih

/-- Both texts start the same, up to where they are at a blank. -/
theorem exists_common {cs : List Char} (h : Relaid cs ds) :
    ∃ common tail tail', cs = common ++ tail ∧ ds = common ++ tail' ∧
      AtBlank tail ∧ AtBlank tail' := by
  induction h with
  | @last blanks feeds hblanks hfeeds =>
    refine ⟨[], blanks, feeds, rfl, rfl, atBlank_of_allBlank hblanks, atBlank_of_allBlank ?_⟩
    intro c hc
    rw [hfeeds c hc]
    decide
  | keep c _ ih =>
    obtain ⟨common, tail, tail', rfl, rfl, htail, htail'⟩ := ih
    exact ⟨c :: common, tail, tail', rfl, rfl, htail, htail'⟩
  | @feed blanks indent cs ds hblanks _ _ _ =>
    refine ⟨[], _, _, rfl, rfl, atBlank_append_cons hblanks (by decide) cs, ?_⟩
    rintro b ⟨⟩
    decide

/-- **A text without a line feed, up to a character that is no blank, is kept.** -/
theorem kept (front : List Char) {d : Char} (h : Relaid (front ++ d :: rest) ds)
    (hfeed : '\n' ∉ front) (hd : isBlank d = false) :
    ∃ ds', ds = front ++ d :: ds' ∧ Relaid rest ds' := by
  induction front generalizing ds with
  | nil =>
    generalize hcs : [] ++ d :: rest = cs at h
    cases h with
    | last hblanks _ => exact absurd (by simp [← hcs]) (hblanks.notMem hd)
    | keep c h =>
      obtain ⟨rfl, rfl⟩ := List.cons.inj hcs
      exact ⟨_, rfl, h⟩
    | feed hblanks _ _ =>
      obtain ⟨more, htext, -⟩ := exists_of_append_nonblank hcs.symm hblanks hd
      simp at htext
  | cons c front ih =>
    generalize hcs : c :: front ++ d :: rest = cs at h
    cases h with
    | last hblanks _ => exact absurd (by simp [← hcs]) (hblanks.notMem hd)
    | keep c' h =>
      obtain ⟨rfl, rfl⟩ := List.cons.inj hcs
      obtain ⟨ds', rfl, hrest⟩ := ih h fun hmem ↦ hfeed (List.mem_cons_of_mem _ hmem)
      exact ⟨ds', rfl, hrest⟩
    | feed hblanks _ _ =>
      obtain ⟨more, htext, -⟩ := exists_of_append_nonblank hcs.symm hblanks hd
      exact absurd (by simp [htext]) hfeed

/-- **Behind a token** the rest of the text is laid out anew. -/
theorem token {c : Char} {cs : List Char} {kind : TokenKind} (h : Relaid (c :: cs) ds)
    (hkind : (piece c cs).kind = some kind) (hvalid : ∀ text, kind ≠ .invalid text)
    (hfeed : '\n' ∉ c :: cs.take (piece c cs).extra) :
    ∃ ds', kindsOf ds = kind :: kindsOf ds' ∧ Relaid (cs.drop (piece c cs).extra) ds' := by
  generalize hn : (piece c cs).extra = n at hfeed ⊢
  have hlength : (cs.take n).length = n := List.length_take_of_le (hn ▸ extra_piece_le c cs)
  obtain ⟨front, d, hword, hd⟩ := exists_concat_piece hkind hvalid
  rw [hn] at hword
  have hfront (rest : List Char) : c :: (cs.take n ++ rest) = front ++ d :: rest := by
    rw [← List.cons_append, hword, List.append_assoc, List.singleton_append]
  have hcs : c :: cs = front ++ d :: cs.drop n := by rw [← hfront, List.take_append_drop]
  rw [hcs] at h
  rw [hword] at hfeed
  obtain ⟨ds', rfl, hrest⟩ := h.kept front (fun hmem ↦ hfeed (List.mem_append_left _ hmem)) hd
  refine ⟨ds', ?_, hrest⟩
  -- the token is the same in front of the rest that is laid out anew
  have hpiece : piece c (cs.take n ++ ds') = piece c cs := by
    obtain ⟨common, tail, tail', htail, rfl, hblank, hblank'⟩ := hrest.exists_common
    have hsplit : cs = cs.take n ++ common ++ tail := by
      rw [List.append_assoc, ← htail, List.take_append_drop]
    rw [← List.append_assoc]
    rw [hsplit] at hkind hn
    refine (piece_congr hblank hblank' hkind hvalid ?_).trans (by rw [← hsplit])
    rw [hn, List.length_append, hlength]
    exact Nat.le_add_right _ _
  rw [← hfront, kindsOf_cons, hpiece, hkind, hn, List.drop_left' hlength]
  rfl

/-! ## Gaps -/

theorem blank {c : Char} (hc : IsGapChar c) (h : Relaid (c :: rest) ds) :
    ∃ ds', kindsOf ds = kindsOf ds' ∧ Relaid rest ds' := by
  generalize hcs : c :: rest = cs at h
  cases h with
  | last hblanks hfeeds =>
    subst hcs
    exact ⟨_, rfl, .last (fun d hd ↦ hblanks d (List.mem_cons_of_mem _ hd)) hfeeds⟩
  | keep c' h =>
    obtain ⟨rfl, rfl⟩ := List.cons.inj hcs
    exact ⟨_, kindsOf_blank hc _, h⟩
  | @feed blanks indent cs ds hblanks hindent h =>
    cases blanks with
    | nil =>
      obtain ⟨rfl, rfl⟩ := List.cons.inj hcs
      have hspaces : Gap (indent ++ []) ds := .blanks (fun d hd ↦ .inl (hindent d hd)) (.nil ds)
      rw [List.append_nil] at hspaces
      exact ⟨ds, by rw [kindsOf_blank hc, hspaces.kindsOf_append], h⟩
    | cons b blanks =>
      obtain ⟨rfl, rfl⟩ := List.cons.inj hcs
      exact ⟨_, rfl, .feed (fun d hd ↦ hblanks d (List.mem_cons_of_mem _ hd)) hindent h⟩

/-- A text that is at a line feed or at its end stays so. -/
theorem atFeed (h : Relaid rest ds) (hrest : ∀ c, rest.head? = some c → c = '\n') :
    ∀ c, ds.head? = some c → c = '\n' := by
  cases h with
  | last _ hfeeds => exact fun c hc ↦ hfeeds c (List.mem_of_head? hc)
  | keep c _ => exact fun d hd ↦ hrest d hd
  | feed _ _ _ =>
    rintro c ⟨⟩
    rfl

/-- **A comment up to the end of its line** may lose blanks. -/
theorem line {text : List Char} (h : Relaid (text ++ rest) ds) (htext : '\n' ∉ text)
    (hrest : ∀ c, rest.head? = some c → c = '\n') :
    ∃ text' ds', ds = text' ++ ds' ∧ '\n' ∉ text' ∧ (∀ c, ds'.head? = some c → c = '\n') ∧
      Relaid rest ds' := by
  induction text generalizing ds with
  | nil => exact ⟨[], ds, rfl, List.not_mem_nil, h.atFeed hrest, h⟩
  | cons c text ih =>
    generalize hcs : c :: text ++ rest = cs at h
    cases h with
    | last hblanks hfeeds =>
      have h : Relaid rest ds := .last (fun d hd ↦ hblanks d (by simp [← hcs, hd])) hfeeds
      exact ⟨[], ds, rfl, List.not_mem_nil, h.atFeed hrest, h⟩
    | keep c' h =>
      obtain ⟨rfl, rfl⟩ := List.cons.inj hcs
      rw [List.mem_cons, not_or] at htext
      obtain ⟨text', ds', rfl, htext', hds', hrest⟩ := ih h htext.2
      exact ⟨c :: text', ds', rfl, by simp [htext.1, htext'], hds', hrest⟩
    | feed hblanks hindent h =>
      obtain ⟨more, rfl, rfl⟩ := exists_of_append_feed hcs.symm htext
      have h := Relaid.feed (fun d hd ↦ hblanks d (List.mem_append_right _ hd)) hindent h
      exact ⟨[], _, rfl, List.not_mem_nil, h.atFeed hrest, h⟩

/-- A slash is where one was. -/
theorem head?_of_slash {cs : List Char} (h : Relaid cs ds) (hds : ds.head? = some '/') :
    cs.head? = some '/' := by
  cases h with
  | last _ hfeeds => exact absurd (hfeeds _ (List.mem_of_head? hds)) (by decide)
  | keep c _ => exact hds
  | feed _ _ _ => cases hds

/-- Characters that are no stars close no comment. -/
theorem not_infix_append (front : List Char) {text : List Char} (hfront : ∀ c ∈ front, c ≠ '*')
    (h : ¬ ['*', '/'] <:+: text) : ¬ ['*', '/'] <:+: front ++ text := by
  induction front with
  | nil => exact h
  | cons c front ih =>
    obtain ⟨hc, hfront⟩ := List.forall_mem_cons.1 hfront
    rw [List.cons_append, List.infix_cons_iff, not_or]
    refine ⟨?_, ih hfront⟩
    rintro ⟨tail, htail⟩
    exact hc (List.cons.inj htail).1.symm

/-- **A comment with an end** is laid out anew with the rest of the text, and ends where it ended. -/
theorem block {text : List Char} (h : Relaid (text ++ '*' :: '/' :: rest) ds)
    (htext : ¬ ['*', '/'] <:+: text) :
    ∃ text' ds', ds = text' ++ '*' :: '/' :: ds' ∧ ¬ ['*', '/'] <:+: text' ∧ Relaid rest ds' := by
  generalize hcs : text ++ '*' :: '/' :: rest = cs at h
  induction h generalizing text with
  | last hblanks _ =>
    exact absurd (by simp [← hcs]) (hblanks.notMem (c := '*') (by decide))
  | @keep c cs ds h ih =>
    cases text with
    | nil =>
      obtain ⟨rfl, rfl⟩ := List.cons.inj hcs
      obtain ⟨ds', rfl, hrest⟩ := h.kept [] List.not_mem_nil (by decide)
      exact ⟨[], ds', rfl, by simp, hrest⟩
    | cons c' text =>
      obtain ⟨rfl, rfl⟩ := List.cons.inj hcs
      rw [List.infix_cons_iff, not_or] at htext
      obtain ⟨text', ds', rfl, htext', hrest⟩ := ih htext.2 rfl
      refine ⟨c' :: text', ds', rfl, ?_, hrest⟩
      rw [List.infix_cons_iff, not_or]
      refine ⟨?_, htext'⟩
      -- a slash behind the star would have been there before
      rintro ⟨tail, htail⟩
      obtain ⟨rfl, rfl⟩ := List.cons.inj htail
      have hslash := h.head?_of_slash rfl
      cases text with
      | nil => cases hslash
      | cons d text =>
        cases hslash
        exact htext.1 ⟨text, rfl⟩
  | @feed blanks indent cs ds hblanks hindent h ih =>
    obtain ⟨more, rfl, rfl⟩ := exists_of_append_nonblank hcs.symm hblanks (by decide)
    have hmore : ¬ ['*', '/'] <:+: more := fun hcloses ↦
      htext (hcloses.trans ⟨blanks ++ ['\n'], [], by simp⟩)
    obtain ⟨text', ds', rfl, htext', hrest⟩ := ih hmore rfl
    refine ⟨'\n' :: (indent ++ text'), ds', by simp, ?_, hrest⟩
    refine not_infix_append ('\n' :: indent) ?_ htext'
    rintro c hc rfl
    rcases List.mem_cons.1 hc with hc | hc
    · cases hc
    · cases hindent _ hc

/-- **Behind a gap** the rest of the text is laid out anew. -/
theorem gap {gap behind : List Char} (hgap : Gap gap behind) (h : Relaid (gap ++ behind) ds) :
    ∃ ds', kindsOf ds = kindsOf ds' ∧ Relaid behind ds' := by
  induction hgap generalizing ds with
  | nil behind => exact ⟨ds, rfl, h⟩
  | blank hc _ ih =>
    obtain ⟨ds₁, hkinds, hgap⟩ := h.blank hc
    obtain ⟨ds', hkinds', hbehind⟩ := ih hgap
    exact ⟨ds', hkinds.trans hkinds', hbehind⟩
  | @line text gap behind htext hhead _ ih =>
    rw [List.cons_append, List.cons_append, List.append_assoc] at h
    obtain ⟨ds₁, rfl, hline⟩ := h.kept ['/'] (by decide) (by decide)
    obtain ⟨text', ds₂, rfl, htext', hds₂, hgap⟩ := hline.line htext hhead
    obtain ⟨ds', hkinds, hbehind⟩ := ih hgap
    exact ⟨ds', (kindsOf_line htext' hds₂).trans hkinds, hbehind⟩
  | @block text gap behind htext _ ih =>
    rw [List.cons_append, List.cons_append, List.append_assoc, List.cons_append,
      List.cons_append] at h
    obtain ⟨ds₁, rfl, hblock⟩ := h.kept ['/'] (by decide) (by decide)
    obtain ⟨text', ds₂, rfl, htext', hgap⟩ := hblock.block htext
    obtain ⟨ds', hkinds, hbehind⟩ := ih hgap
    exact ⟨ds', (kindsOf_block htext' ds₂).trans hkinds, hbehind⟩

end Relaid

/-! ## Texts with plain tokens -/

/-- None of the tokens of the text is invalid, and none has a line feed in it. -/
inductive Plain : List Char → Prop
  | nil : Plain []
  | gap {c : Char} {cs : List Char} :
    (piece c cs).kind = none → Plain (cs.drop (piece c cs).extra) → Plain (c :: cs)
  | token {c : Char} {cs : List Char} {kind : TokenKind} :
    (piece c cs).kind = some kind → (∀ text, kind ≠ .invalid text) →
    '\n' ∉ c :: cs.take (piece c cs).extra → Plain (cs.drop (piece c cs).extra) → Plain (c :: cs)

/-- **The same is read of a plain text and of the text laid out anew.** -/
theorem Plain.kindsOf_relaid {cs ds : List Char} (hcs : Plain cs) (h : Relaid cs ds) :
    kindsOf ds = kindsOf cs := by
  induction hcs generalizing ds with
  | nil =>
    generalize hcs : ([] : List Char) = cs at h
    cases h with
    | last _ hfeeds =>
      subst hcs
      have hgap : Gap (ds ++ []) [] :=
        .blanks (fun c hc ↦ .inr (.inr (.inr (hfeeds c hc)))) (.nil [])
      have hkinds := hgap.kindsOf_append
      rwa [List.append_nil, List.append_nil] at hkinds
    | keep c _ => cases hcs
    | feed _ _ _ => simp at hcs
  | @gap c cs hkind _ ih =>
    have hgap : Gap (c :: (cs.take (piece c cs).extra ++ [])) (cs.drop (piece c cs).extra) :=
      gap_of_piece hkind (List.nil_append _).symm (.nil _)
    have hcs : c :: cs = c :: (cs.take (piece c cs).extra ++ []) ++ cs.drop (piece c cs).extra := by
      rw [List.append_nil, List.cons_append, List.take_append_drop]
    rw [hcs] at h
    obtain ⟨ds', hkinds, h⟩ := h.gap hgap
    rw [hkinds, ih h, hcs, hgap.kindsOf_append]
  | @token c cs kind hkind hvalid hfeed _ ih =>
    obtain ⟨ds', hkinds, h⟩ := h.token hkind hvalid hfeed
    rw [hkinds, ih h, kindsOf_cons, hkind]
    rfl

/-- What makes a token plain in a text. -/
structure Token.PlainIn (text : List Char) (t : Token) : Prop where
  valid : ∀ s, t.kind ≠ .invalid s
  oneLine : ∀ s, t.kind = .string s → '\n' ∉ slice text t.span

/-- The same as a test. -/
def Token.isPlainIn (text : List Char) (t : Token) : Bool :=
  match t.kind with
  | .invalid _ => false
  | .string _ => decide ('\n' ∉ slice text t.span)
  | _ => true

theorem Token.isPlainIn_iff (text : List Char) (t : Token) :
    t.isPlainIn text = true ↔ t.PlainIn text := by
  obtain ⟨kind, span⟩ := t
  cases kind with
  | invalid s => exact ⟨nofun, fun h ↦ absurd rfl (h.valid s)⟩
  | string s =>
    rw [isPlainIn, decide_eq_true_iff]
    exact ⟨fun h ↦ ⟨nofun, fun _ _ ↦ h⟩, fun h ↦ h.oneLine s rfl⟩
  | _ => exact ⟨fun _ ↦ ⟨nofun, nofun⟩, fun _ ↦ rfl⟩

instance (text : List Char) (t : Token) : Decidable (t.PlainIn text) :=
  decidable_of_iff _ (t.isPlainIn_iff text)

/-- **A text is plain if its tokens are**; only a string literal can have a line feed in it. -/
theorem plain_of_tokensFrom (before cs : List Char)
    (h : ∀ t ∈ tokensFrom 0 (byteLength before) cs, t.PlainIn (before ++ cs)) : Plain cs := by
  generalize hn : cs.length = n
  induction n using Nat.strongRecOn generalizing before cs with
  | ind n ih =>
    subst hn
    cases cs with
    | nil => exact .nil
    | cons c cs =>
      have hlength : (cs.drop (piece c cs).extra).length < (c :: cs).length :=
        Nat.lt_succ_of_le (List.length_drop ▸ Nat.sub_le ..)
      have htext : before ++ c :: cs =
          before ++ c :: cs.take (piece c cs).extra ++ cs.drop (piece c cs).extra := by
        rw [List.append_assoc, List.cons_append, List.take_append_drop]
      have hoffset : byteLength before + c.utf8Size + byteLength (cs.take (piece c cs).extra) =
          byteLength (before ++ c :: cs.take (piece c cs).extra) := by
        rw [Text.byteLength_append, byteLength, Nat.add_assoc]
      have hbehind (hrest : ∀ t ∈ tokensFrom 0 (byteLength before + c.utf8Size +
          byteLength (cs.take (piece c cs).extra)) (cs.drop (piece c cs).extra),
          t.PlainIn (before ++ c :: cs)) : Plain (cs.drop (piece c cs).extra) := by
        rw [hoffset, htext] at hrest
        exact ih _ hlength _ _ hrest rfl
      rw [tokensFrom, tokensFrom_skip] at h
      cases hkind : (piece c cs).kind with
      | none =>
        rw [hkind] at h
        exact .gap hkind (hbehind h)
      | some kind =>
        rw [hkind] at h
        obtain ⟨hfirst, hrest⟩ := List.forall_mem_cons.1 h
        refine .token hkind hfirst.valid ?_ (hbehind hrest)
        by_cases hstring : ∃ s, kind = .string s
        · obtain ⟨s, hs⟩ := hstring
          have hslice := hfirst.oneLine s hs
          rw [htext, List.append_assoc, Text.slice_append] at hslice
          exact hslice
        · intro hmem
          cases isBlank_of_mem_piece hkind hfirst.valid (fun s hs ↦ hstring ⟨s, hs⟩) _ hmem

end Dossier.Script
