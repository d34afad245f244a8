import Dossier.Proofs.Parse.Narrow
import Dossier.Proofs.Parse.Relaid
import Dossier.Proofs.Parse.StmtKinds
import Dossier.Response

/-!
# Programs that are shown

A program that is shown can be read again: what stands between the braces of a method is read as the
body of the method is.

* `exists_shownLine` says what is done to a line: the blanks at its end are taken off, and spaces are
  put in front of what is left.
* `exists_relaid_shownBody` follows, line by line: behind the spaces that it starts with, the text of
  the lines is the body laid out anew.
* `infix_shownNamespaces` says where the lines of a method stand in the lines of a program.
* `render_readsAlike` is the result.
-/

set_option autoImplicit false

namespace Dossier.CompileUnit

open Response (unlines)
open Script (Relaid tokenize parse)
open Text (AllBlank dropEndBlanks dropReturn joinWith linesOf splitOn)

/-! ## Lines -/

/-- The characters of a line of a body that is shown. -/
def shownLine (depth : Nat) (line : List Char) : List Char :=
  let text := dropEndBlanks line
  if text.isEmpty then [] else (indented depth (String.ofList text)).toList

theorem exists_indented (depth : Nat) (line : String) :
    ∃ indent, (indented depth line).toList = indent ++ line.toList ∧ ∀ c ∈ indent, c = ' ' := by
  refine ⟨_, String.toList_append, fun c hc ↦ ?_⟩
  rw [String.toList_join, List.mem_flatMap] at hc
  obtain ⟨spaces, hspaces, hc⟩ := hc
  rw [List.eq_of_mem_replicate hspaces] at hc
  exact List.eq_of_mem_replicate (n := 4) hc

/-- **A line loses the blanks at its end, and gets spaces in front.** -/
theorem exists_shownLine (depth : Nat) (line : List Char) :
    ∃ indent, shownLine depth line = indent ++ dropEndBlanks line ∧ ∀ c ∈ indent, c = ' ' := by
  by_cases hempty : dropEndBlanks line = []
  · exact ⟨[], by simp [shownLine, hempty], by simp⟩
  · obtain ⟨indent, hindent, hspaces⟩ := exists_indented depth (String.ofList (dropEndBlanks line))
    refine ⟨indent, ?_, hspaces⟩
    rw [shownLine, if_neg (by simpa using hempty), hindent, String.toList_ofList]

/-- A carriage return at the end of a line is one of the blanks. -/
theorem dropEndBlanks_dropReturn (line : List Char) :
    dropEndBlanks (dropReturn line) = dropEndBlanks line := by
  rw [dropReturn]
  split
  · rename_i hreturn
    have hblank : AllBlank ['\r'] := by simp only [AllBlank, List.mem_singleton, forall_eq]; rfl
    conv => rhs; rw [← List.dropLast_append_getLast? _ hreturn]
    exact (Text.dropEndBlanks_append hblank _).symm
  · rfl

theorem toList_unlines_shownBody (depth : Nat) (body : String) :
    (unlines (shownBody depth body)).toList =
      (Text.lines (dropEndBlanks body.toList)).flatMap fun line ↦ shownLine depth line ++ ['\n'] := by
  rw [unlines, shownBody, List.map_map, String.toList_join, List.flatMap_map]
  refine congrArg (List.flatMap · _) (funext fun line ↦ ?_)
  simp only [Function.comp_apply, String.toList_append, shownLine]
  split <;> rfl

/-! ## Bodies -/

/-- The lines of the pieces of a text are the text laid out anew, whatever blanks stand behind it. -/
theorem exists_relaid_linesOf (depth : Nat) {pieces : List (List Char)} (hne : pieces ≠ [])
    {blanks : List Char} (hblanks : AllBlank blanks) :
    ∃ indent ds, ((linesOf pieces).flatMap fun line ↦ shownLine depth line ++ ['\n']) = indent ++ ds ∧
      (∀ c ∈ indent, c = ' ') ∧ Relaid (joinWith '\n' pieces ++ blanks) ds := by
  fun_induction linesOf pieces with
  | case1 => exact absurd rfl hne
  | case2 last hlast =>
    obtain rfl := List.isEmpty_iff.1 hlast
    exact ⟨[], [], rfl, by simp, .last hblanks (by simp)⟩
  | case3 last _ =>
    obtain ⟨indent, hline, hspaces⟩ := exists_shownLine depth last
    obtain ⟨more, hlast, hmore⟩ := Text.exists_blanks last
    refine ⟨indent, dropEndBlanks last ++ ['\n'], by simp [hline], hspaces, ?_⟩
    rw [joinWith, hlast, List.append_assoc, ← hlast]
    refine Relaid.append_left _ (.last (fun c hc ↦ ?_) (by simp))
    exact (List.mem_append.1 hc).elim (hmore c) (hblanks c)
  | case4 piece next pieces ih =>
    obtain ⟨indent', ds, hlines, hspaces', hrest⟩ := ih (List.cons_ne_nil _ _)
    obtain ⟨indent, hline, hspaces⟩ := exists_shownLine depth (dropReturn piece)
    obtain ⟨more, hpiece, hmore⟩ := Text.exists_blanks piece
    rw [dropEndBlanks_dropReturn] at hline
    refine ⟨indent, dropEndBlanks piece ++ '\n' :: (indent' ++ ds), ?_, hspaces, ?_⟩
    · rw [List.flatMap_cons, hlines, hline]
      simp
    · have hfeed := Relaid.feed hmore hspaces' hrest
      rw [joinWith, hpiece, List.append_assoc, List.append_assoc, ← hpiece]
      exact hfeed.append_left _

/-- **A body that is shown is the body laid out anew**, behind the spaces that it starts with. -/
theorem exists_relaid_shownBody (depth : Nat) (body : String) :
    ∃ indent ds, (unlines (shownBody depth body)).toList = indent ++ ds ∧ (∀ c ∈ indent, c = ' ') ∧
      Relaid body.toList ds := by
  obtain ⟨blanks, hbody, hblanks⟩ := Text.exists_blanks body.toList
  obtain ⟨indent, ds, hlines, hspaces, hrelaid⟩ := exists_relaid_linesOf depth
    (Text.splitOn_ne_nil '\n' (dropEndBlanks body.toList)) hblanks
  refine ⟨indent, ds, (toList_unlines_shownBody depth body).trans hlines, hspaces, ?_⟩
  rwa [Text.joinWith_splitOn, ← hbody] at hrelaid

/-- Two texts are read alike: their tokens have the same kinds, also as they are kept if the texts are
not too long, and they are parsed as the same statements, up to their places, and with errors that have
the same messages. -/
structure ReadsAlike (text text' : String) : Prop where
  tokens : (tokenize text).map Script.Token.kind = (tokenize text').map Script.Token.kind
  tree : (parse text).bare = (parse text').bare
  kept : Text.byteLength text.toList < UInt32.size → Text.byteLength text'.toList < UInt32.size →
    ∃ ts ts', Script.narrowTokens? text = some ts ∧ Script.narrowTokens? text' = some ts' ∧
      ts.map Script.Token.kind = ts'.map Script.Token.kind

/-- **A body that is shown is read as the body is**, if the tokens of the body are plain. -/
theorem shownBody_readsAlike {body : String}
    (hbody : ∀ t ∈ tokenize body, t.PlainIn body.toList) (depth : Nat) :
    ReadsAlike (unlines (shownBody depth body)) body := by
  have hplain : Script.Plain body.toList := Script.plain_of_tokensFrom [] body.toList hbody
  obtain ⟨indent, ds, hshown, hspaces, hrelaid⟩ := exists_relaid_shownBody depth body
  have hgap : Script.Gap (indent ++ []) ds := .blanks (fun c hc ↦ .inl (hspaces c hc)) (.nil ds)
  rw [List.append_nil] at hgap
  have htokens : Script.SameKinds (tokenize (unlines (shownBody depth body))) (tokenize body) :=
    calc Script.kindsOf (unlines (shownBody depth body)).toList
      _ = Script.kindsOf ds := by rw [hshown, hgap.kindsOf_append]
      _ = Script.kindsOf body.toList := hplain.kindsOf_relaid hrelaid
  refine ⟨htokens, Script.parseTokens_congr htokens, fun hshort hshort' ↦ ?_⟩
  exact ⟨_, _, Script.narrowTokens?_eq hshort, Script.narrowTokens?_eq hshort', htokens⟩

/-! ## Programs -/

theorem infix_spaced {group : List String} {groups : List (List String)} (h : group ∈ groups) :
    group <:+: spaced groups := by
  fun_induction spaced groups with
  | case1 => cases h
  | case2 only =>
    rw [List.mem_singleton.1 h]
  | case3 first next groups ih =>
    rcases List.mem_cons.1 h with rfl | h
    · exact (List.prefix_append _ _).isInfix
    · refine (ih h).trans (List.IsSuffix.isInfix ?_)
      exact (List.suffix_cons "" _).trans (List.suffix_append first _)

theorem infix_braced (depth : Nat) (inside : List String) : inside <:+: braced depth inside :=
  ⟨[indented depth "\x7b"], [indented depth "\x7d"], rfl⟩

theorem infix_shownClass (depth : Nat) {c : Class} {m : Method} (hm : m ∈ c.methods) :
    shownMethod (depth + 1) m <:+: shownClass depth c :=
  (infix_spaced (List.mem_map_of_mem hm)).trans
    ((infix_braced depth _).trans (List.suffix_cons _ _).isInfix)

theorem infix_shownNamespace {ns : Namespace} {c : Class} (hc : c ∈ ns.classes) :
    shownClass 1 c <:+: shownNamespace ns := by
  refine List.IsInfix.trans ?_ ((infix_braced 0 _).trans (List.suffix_cons _ _).isInfix)
  refine infix_spaced ?_
  split
  · exact List.mem_map_of_mem hc
  · exact List.mem_cons_of_mem _ (List.mem_map_of_mem hc)

/-- **The lines of a method stand in the lines of a program that has it.** -/
theorem infix_shownNamespaces {u : CompileUnit} {ns : Namespace} {c : Class} {m : Method}
    (hns : ns ∈ u.namespaces) (hc : c ∈ ns.classes) (hm : m ∈ c.methods) :
    shownMethod 2 m <:+: spaced (u.namespaces.map shownNamespace) :=
  (infix_shownClass 1 hm).trans
    ((infix_shownNamespace hc).trans (infix_spaced (List.mem_map_of_mem hns)))

theorem exists_unlines_of_infix {part lines : List String} (h : part <:+: lines) :
    ∃ before behind, unlines lines = before ++ unlines part ++ behind := by
  obtain ⟨front, back, rfl⟩ := h
  refine ⟨unlines front, unlines back, ?_⟩
  simp only [unlines, List.map_append, String.join_append]

/-- **A program that is shown can be read again.**  Take a method whose body has no invalid token and
no string literal with a line feed in it.  At every indentation its lines are its signature and, in
braces, lines that are read as the body is: as tokens of the same kinds, and as the same statements up
to their places.  In the text of every program that has the method, its lines stand one after
another. -/
theorem render_readsAlike {m : Method}
    (hm : ∀ t ∈ tokenize m.body, t.PlainIn m.body.toList) :
    (∀ depth, ∃ signature,
      shownMethod depth m = signature :: braced depth (shownBody (depth + 1) m.body) ∧
      ReadsAlike (unlines (shownBody (depth + 1) m.body)) m.body) ∧
    ∀ u : CompileUnit, ∀ ns ∈ u.namespaces, ∀ c ∈ ns.classes, m ∈ c.methods →
      ∃ before behind, render u = before ++ unlines (shownMethod 2 m) ++ behind := by
  refine ⟨fun depth ↦ ⟨_, rfl, shownBody_readsAlike hm _⟩, fun u ns hns c hc hmethod ↦ ?_⟩
  exact exists_unlines_of_infix (infix_shownNamespaces hns hc hmethod)

/-- Its body has a comment over three lines, blanks of several kinds at the ends of lines, and empty
lines. -/
def noteMethod : Method where
  name := "Note"
  visibility := .everyone
  isStatic := false
  returns := "System.String"
  params := []
  body := "/* a\u2003\r\n \u3000\r\n  b\t*/ x = \"1  2\"; \t\r\n\r\n  return x // last\u00A0\n\n"

/-- A program that has the method. -/
def noteUnit : CompileUnit :=
  ⟨[⟨"Notes", ["System"], [⟨"Note", .unstated, false, [noteMethod]⟩]⟩]⟩

/-- Its lines are not those of the body, and are read alike. -/
theorem noteMethod_readsAlike :
    (∀ t ∈ tokenize noteMethod.body, t.PlainIn noteMethod.body.toList) ∧
    shownBody 3 noteMethod.body =
      ["            /* a", "", "              b\t*/ x = \"1  2\";", "",
        "              return x // last"] ∧
    ReadsAlike (unlines (shownBody 3 noteMethod.body)) noteMethod.body ∧
    ∃ before behind, render noteUnit = before ++ unlines (shownMethod 2 noteMethod) ++ behind := by
  have hm : ∀ t ∈ tokenize noteMethod.body, t.PlainIn noteMethod.body.toList := by decide +kernel
  obtain ⟨hbody, hprogram⟩ := render_readsAlike hm
  obtain ⟨_, -, hreads⟩ := hbody 2
  exact ⟨hm, by decide +kernel, hreads, hprogram noteUnit _ (.head _) _ (.head _) (.head _)⟩

end Dossier.CompileUnit
