import Dossier.CompileUnit
import Dossier.Text.Blank

/-!
# Showing a compile unit

A compile unit as source text with braces, for people to read.  What is in braces is indented by
four more blanks.  A body is shown line by line, without the blanks at the end of a line and without
the lines at its end that have nothing else; a line that is blank stays empty.
-/

set_option autoImplicit false

namespace Dossier

namespace CompileUnit

/-- A line at an indentation. -/
def indented (depth : Nat) (line : String) : String :=
  String.join (List.replicate depth "    ") ++ line

/-- What stands between braces, with the braces. -/
def braced (depth : Nat) (inside : List String) : List String :=
  indented depth "\x7b" :: inside ++ [indented depth "\x7d"]

/-- Groups of lines with an empty line between any two. -/
def spaced : List (List String) → List String
  | [] => []
  | [group] => group
  | group :: next :: groups => group ++ "" :: spaced (next :: groups)

/-- The modifiers of a declaration, each with a blank after it. -/
def modifiers (visibility : Visibility) (isStatic : Bool) : String :=
  ((visibility.keyword?.map (· ++ " ")).getD "") ++ if isStatic then "static " else ""

/-- A parameter as a signature shows it. -/
def shownParameter (p : Parameter) : String :=
  p.type ++ " " ++ p.name ++ ((p.default?.map (" = " ++ ·)).getD "")

/-- The lines of a body. -/
def shownBody (depth : Nat) (body : String) : List String :=
  (Text.lines (Text.dropEndBlanks body.toList)).map fun line ↦
    let text := Text.dropEndBlanks line
    if text.isEmpty then "" else indented depth (String.ofList text)

/-- The lines of a method. -/
def shownMethod (depth : Nat) (m : Method) : List String :=
  let params := ", ".intercalate (m.params.map shownParameter)
  indented depth (modifiers m.visibility m.isStatic ++ m.returns ++ " " ++ m.name ++ "(" ++ params ++
      ")") ::
    braced depth (shownBody (depth + 1) m.body)

/-- The lines of a class. -/
def shownClass (depth : Nat) (c : Class) : List String :=
  indented depth (modifiers c.visibility c.isStatic ++ "class " ++ c.name) ::
    braced depth (spaced (c.methods.map (shownMethod (depth + 1))))

/-- The lines of a namespace. -/
def shownNamespace (ns : Namespace) : List String :=
  let imports := ns.imports.map fun name ↦ indented 1 ("using " ++ name ++ ";")
  let groups := ns.classes.map (shownClass 1)
  let groups := if imports.isEmpty then groups else imports :: groups
  ("namespace " ++ ns.name) :: braced 0 (spaced groups)

/-- The program as source text. -/
def render (u : CompileUnit) : String :=
  String.join ((spaced (u.namespaces.map shownNamespace)).map (· ++ "\n"))

end CompileUnit

end Dossier
