import Dossier.Diagnostic.Quoted
import Dossier.Proofs.Binding.Lexicon
import Dossier.Proofs.Binding.Places
import Dossier.Proofs.Text.Lines

/-!
# Diagnostics are well placed

A diagnostic with a location speaks of a stretch of a body, and shows it to its reader.

* `Location.PointsInto` says of a location that it is that of a stretch of the body of a method.  The
  diagnostics of a body have such locations, or none (`pointsInto_of_mem_bodyNotes`).
* `Diagnostic.Shows` says what the reader is told and shown: where the stretch starts, all of the
  stretch, and the line around its start.  This follows, as nothing has to be cut off
  (`Location.PointsInto.exists_shows`).
* `bind_located` is the result for whole units.
-/

set_option autoImplicit false

namespace Dossier

open Text (byteLength)

/-! ## Locations -/

/-- The location is that of a stretch of the body of the method. -/
structure Location.PointsInto (l : Location) (ns : Namespace) (c : Class) (m : Method) : Prop where
  namespaceName : l.namespaceName = ns.name
  className : l.className = c.name
  methodName : l.methodName = m.name
  fits : l.span.Fits m.body.toList
  position : l.position = Text.lineCol m.body l.span.start

/-- A location that is made for a stretch of a body points into it. -/
theorem Location.pointsInto_inBody {ns : Namespace} {c : Class} {m : Method} {span : Text.Span}
    (h : span.Fits m.body.toList) :
    (inBody ns.name c.name m.name m.body span).PointsInto ns c m := ⟨rfl, rfl, rfl, h, rfl⟩

/-- The diagnostic is about a stretch of the body, with some text in front of it and some behind, and
quotes all of it, with the line around its start. -/
structure Diagnostic.Shows (d : Diagnostic) (l : Location) (body : String)
    (before stretch behind : List Char) : Prop where
  parts : body.toList = before ++ (stretch ++ behind)
  start : l.span.start = byteLength before
  stop : l.span.stop = byteLength before + byteLength stretch
  length : l.span.length = byteLength stretch
  slice : Text.slice body.toList l.span = stretch
  position : l.position = ⟨before.count '\n' + 1, (before.rtakeWhile (· != '\n')).length + 1⟩
  quotedOffset : (Report.of d l body).offset = byteLength before
  quotedLength : (Report.of d l body).length = byteLength stretch
  quotedLine : (Report.of d l body).quotedLine body =
    (before.rtakeWhile (· != '\n') ++ (stretch ++ behind).takeWhile (· != '\n'), l.position)

/-- The line around the place where a report starts to quote. -/
theorem Report.quotedLine_eq {r : Report} {body : String} {before behind : List Char}
    (h : body.toList = before ++ behind) (hoffset : r.offset = byteLength before) :
    r.quotedLine body = (before.rtakeWhile (· != '\n') ++ behind.takeWhile (· != '\n'),
      Text.lineCol body (byteLength before)) := by
  rw [quotedLine, hoffset, Text.lineCol_append h, h]
  simp only [Nat.add_sub_cancel, Text.getElem?_splitOn, Option.getD_some]

/-- A report never quotes beyond the end, whatever body it is made for. -/
theorem Report.offset_add_length_le (d : Diagnostic) (l : Location) (body : String) :
    (Report.of d l body).offset + (Report.of d l body).length ≤ byteLength body.toList := by
  simp only [Report.of]
  omega

/-- **A stretch of a body is shown whole.** -/
theorem Location.PointsInto.exists_shows {l : Location} {ns : Namespace} {c : Class} {m : Method}
    (h : l.PointsInto ns c m) (d : Diagnostic) :
    ∃ before stretch behind, d.Shows l m.body before stretch behind := by
  obtain ⟨before, stretch, behind, hparts, hstart, hstop⟩ := h.fits.exists_parts
  have hlength : l.span.length = byteLength stretch := by
    have := h.fits.start_add_length
    omega
  have hsize : byteLength m.body.toList =
      byteLength before + (byteLength stretch + byteLength behind) := by
    rw [hparts, Text.byteLength_append, Text.byteLength_append]
  have hoffset : (Report.of d l m.body).offset = byteLength before := by
    simp only [Report.of]
    omega
  have hposition : l.position = Text.lineCol m.body (byteLength before) := by
    rw [h.position, hstart]
  exact ⟨before, stretch, behind, {
    parts := hparts
    start := hstart.symm
    stop := hstop.symm
    length := hlength
    slice := by
      have h := Text.slice_append before stretch behind
      rwa [← hparts, hstop, hstart] at h
    position := by rw [hposition, Text.lineCol_append hparts]
    quotedOffset := hoffset
    quotedLength := by
      simp only [Report.of]
      omega
    quotedLine := by rw [Report.quotedLine_eq hparts hoffset, hposition] }⟩

namespace Script

/-! ## The diagnostics of a body -/

/-- **The diagnostics of a body point into it**, those that have a location. -/
theorem pointsInto_of_mem_bodyNotes {u : CompileUnit} {classIndex : Nat} {c : Namespace × Class}
    {m : Method} {d : Diagnostic} (hd : d ∈ bodyNotes u classIndex c m) {l : Location}
    (hl : d.location = some l) : l.PointsInto c.1 c.2 m := by
  have hparse := fits_parse m.body
  rw [bodyNotes, Site.bind, bindMethod] at hd
  dsimp only at hd
  split at hd
  · -- what is noted of the statements, and perhaps of the method as a whole
    rcases List.mem_append.1 hd with hd | hd
    · obtain ⟨p, hp, rfl⟩ := List.mem_map.1 hd
      cases hl
      exact Location.pointsInto_inBody (Surroundings.notesFit_bindBody _ hparse.statements p hp)
    · split at hd
      · obtain rfl := List.mem_singleton.1 hd
        cases hl
      · cases hd
  · obtain ⟨e, he, rfl⟩ := List.mem_map.1 hd
    cases hl
    exact Location.pointsInto_inBody (hparse.errors e he)

/-- A diagnostic with a location is one of a body. -/
theorem exists_mem_bodyNotes {u : CompileUnit} {references : List String} {d : Diagnostic}
    (hd : d ∈ diagnosticsOf u references) {l : Location} (hl : d.location = some l) :
    ∃ classIndex ns c m, u.classes[classIndex]? = some (ns, c) ∧ m ∈ c.methods ∧
      d ∈ bodyNotes u classIndex (ns, c) m := by
  have hgeneral (ps : List Problem) : d ∉ ps.map fun p ↦ p.toDiagnostic none := by
    intro hd
    obtain ⟨p, -, rfl⟩ := List.mem_map.1 hd
    cases hl
  rw [diagnosticsOf, ← diagnostics_referenceProblems, List.mem_append, List.mem_append] at hd
  rcases hd with hd | hd | hd
  · exact absurd hd (hgeneral _)
  · exact absurd hd (hgeneral _)
  · obtain ⟨notes, hnotes, hd⟩ := List.mem_flatten.1 hd
    obtain ⟨⟨c, classIndex⟩, hc, hnotes⟩ := List.mem_flatMap.1 hnotes
    obtain ⟨m, hm, rfl⟩ := List.mem_map.1 hnotes
    exact ⟨classIndex, c.1, c.2, m, List.mem_zipIdx_iff_getElem?.1 hc, hm, hd⟩

/-- **Diagnostics are well placed.**  A diagnostic of a unit that cannot be bound has no location, or it
is one of the body of a method that the unit declares.  Then it names this method, the ends of its span
are boundaries of this body, in order and not beyond the end, and its line and column are those of the
start of the span.  Numbers that can hold the length of the body can hold both ends.  So the text in
front of the span can be taken off and counted, the length of the span is that of the stretch, and the
report quotes all of the stretch and the line around its start; and where several methods have the
name, so that it is made for the body of another one, it still does not go beyond the end of that
body. -/
theorem bind_located {u : CompileUnit} {references : List String} {ds : List Diagnostic}
    (hbind : bind u references = .error ds) {d : Diagnostic} (hd : d ∈ ds) {l : Location}
    (hl : d.location = some l) :
    ∃ classIndex ns c m, u.classes[classIndex]? = some (ns, c) ∧
      ns ∈ u.namespaces ∧ c ∈ ns.classes ∧ m ∈ c.methods ∧
      d ∈ bodyNotes u classIndex (ns, c) m ∧ l.PointsInto ns c m ∧
      l.span.stop ≤ byteLength m.body.toList ∧
      (∃ before stretch behind, d.Shows l m.body before stretch behind) ∧
      ∀ body, u.quotedBody? d = some body →
        (Report.of d l body).offset + (Report.of d l body).length ≤ byteLength body.toList := by
  have hds : ds = diagnosticsOf u references := by
    rw [bind] at hbind
    split at hbind
    · cases hbind
    · cases hbind
      exact notes_bindAll u references
  subst hds
  obtain ⟨classIndex, ns, c, m, hc, hm, hd⟩ := exists_mem_bodyNotes hd hl
  obtain ⟨ns', hns, hmem⟩ := List.mem_flatMap.1 (List.mem_of_getElem? hc)
  obtain ⟨c', hc', heq⟩ := List.mem_map.1 hmem
  cases heq
  have hpoints := pointsInto_of_mem_bodyNotes hd hl
  exact ⟨classIndex, ns, c, m, hc, hns, hc', hm, hd, hpoints, hpoints.fits.stop.le,
    hpoints.exists_shows d, fun body _ ↦ Report.offset_add_length_le d l body⟩

/-- A class with one method, which calls another one that is not there. -/
def greetUnit : CompileUnit :=
  ⟨[⟨"Acme", [], [⟨"Greeter", .everyone, true,
    [⟨"Run", .everyone, true, "void", [], "var s = \"é\";\n  greet(s);"⟩]⟩]⟩]⟩

/-- The place of the call. -/
def greetLocation : Location := ⟨"Acme", "Greeter", "Run", ⟨16, 21⟩, ⟨2, 3⟩⟩

/-- Bytes and columns differ here: a character of two bytes and a line feed are in front of the call. -/
theorem greetUnit_located : ∃ d, bind greetUnit [] = .error [d] ∧ d.location = some greetLocation ∧
    ∃ ns c m, m ∈ c.methods ∧ greetLocation.PointsInto ns c m ∧
      ∃ before behind, d.Shows greetLocation m.body before "greet".toList behind := by
  let d := (Problem.unknownName "greet").toDiagnostic (some greetLocation)
  have hnotes : (bindAll greetUnit []).notes = [d] := by decide +kernel
  have hbind : bind greetUnit [] = .error [d] := by
    rw [bind, hnotes]
    rfl
  obtain ⟨_, ns, c, m, -, hns, hc, hm, -, hpoints, -, ⟨before, stretch, behind, hshows⟩, -⟩ :=
    bind_located hbind (List.mem_singleton_self d) rfl
  refine ⟨d, hbind, rfl, ns, c, m, hm, hpoints, before, behind, ?_⟩
  obtain rfl := List.mem_singleton.1 hns
  obtain rfl := List.mem_singleton.1 hc
  obtain rfl := List.mem_singleton.1 hm
  have hstretch : stretch = "greet".toList := by
    rw [← hshows.slice]
    decide +kernel
  exact hstretch ▸ hshows

end Script

end Dossier
