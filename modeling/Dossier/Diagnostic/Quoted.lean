import Dossier.Diagnostic
import Dossier.Text.Line

/-!
# Diagnostics with the text they mean

A diagnostic that points into a body is shown with the line of the body where it starts, and with a
mark under the stretch that it means, as far as that is on the line.  All other diagnostics are shown
in one line.
-/

set_option autoImplicit false

namespace Dossier

namespace Report

/-- The line of a body on which the quoted stretch starts, and the place of its start. -/
def quotedLine (r : Report) (body : String) : List Char × Text.Position :=
  let place := Text.lineCol body r.offset
  (((Text.splitOn '\n' body.toList)[place.line - 1]?).getD [], place)

/-- The mark under the stretch; it has one character at least. -/
def mark (r : Report) (body : String) : String :=
  let (line, place) := r.quotedLine body
  let stretch := Text.slice body.toList ⟨r.offset, r.offset + r.length⟩
  let width := max 1 (min (stretch.takeWhile (· ≠ '\n')).length (line.length + 1 - place.column))
  String.ofList (List.replicate (place.column - 1) ' ' ++ List.replicate width '^')

/-- The lines that quote a body. -/
def quotation (r : Report) (body : String) : List String :=
  let (line, place) := r.quotedLine body
  let number := toString place.line
  let margin := String.ofList (List.replicate number.length ' ')
  [number ++ " | " ++ String.ofList (Text.dropReturn line),
    margin ++ " | " ++ r.mark body ++ " " ++ r.label]

end Report

namespace CompileUnit

/-- Lines that stand further right than those that are not quoted. -/
def setOff (lines : List String) : String := "\n".intercalate (lines.map ("    " ++ ·))

/-- How a diagnostic of a compile unit is shown. -/
def report (u : CompileUnit) (d : Diagnostic) : String :=
  match u.quotedBody? d, d.location with
  | some body, some l =>
    setOff (Text.fields '\n' d.text ++ (Report.of d l body).quotation body)
  | _, _ => d.text

end CompileUnit

end Dossier
