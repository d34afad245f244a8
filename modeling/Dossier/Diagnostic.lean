import Dossier.CompileUnit
import Dossier.Text.Span

/-!
# Diagnostics

What a compiler has to say about a program: how bad it is, a code, a message, and often a place in
the body of a method.

A diagnostic is shown in one line, or as a `Report` that quotes the body it points into.  The quoted
stretch is cut to the body, whatever the diagnostic claims.
-/

set_option autoImplicit false

namespace Dossier

open Text (Span)

/-- How bad it is. -/
inductive Severity where
  | error
  | warning
  deriving DecidableEq, Repr, Inhabited

/-- The word for a severity. -/
def Severity.word : Severity → String
  | error => "error"
  | warning => "warning"

/-- A place in the body of a method. -/
structure Location where
  /-- The namespace of the method's class. -/
  namespaceName : String
  /-- The method's class. -/
  className : String
  /-- The method. -/
  methodName : String
  /-- The bytes of its body. -/
  span : Span
  /-- The line and column where they start. -/
  position : Text.Position
  deriving DecidableEq, Repr, Inhabited

namespace Location

/-- The place of a stretch of a body. -/
def inBody (namespaceName className methodName body : String) (span : Span) : Location :=
  ⟨namespaceName, className, methodName, span, Text.lineCol body span.start⟩

/-- The method with its class and namespace in front. -/
def qualifiedMethod (l : Location) : String :=
  qualify (qualify l.namespaceName l.className) l.methodName

end Location

/-- A finding of a compiler. -/
structure Diagnostic where
  /-- How bad it is. -/
  severity : Severity
  /-- Its code. -/
  code : String
  /-- What is wrong. -/
  message : String
  /-- Where. -/
  location : Option Location
  deriving DecidableEq, Repr, Inhabited

namespace Diagnostic

/-- Does it keep the program from being compiled? -/
def isError (d : Diagnostic) : Bool := d.severity == .error

/-- The number of errors among diagnostics. -/
def errorCount (ds : List Diagnostic) : Nat := ds.countP isError

/-- Code and message. -/
def headline (d : Diagnostic) : String := d.code ++ ": " ++ d.message

/-- The diagnostic in one line. -/
def text (d : Diagnostic) : String :=
  let place := match d.location with
    | some l =>
      l.qualifiedMethod ++ "(" ++ toString l.position.line ++ ":" ++ toString l.position.column ++
        "): "
    | none => ""
  place ++ d.severity.word ++ " " ++ d.headline

end Diagnostic

/-- A diagnostic that quotes the body it points into. -/
structure Report where
  /-- Code and message. -/
  message : String
  /-- The code. -/
  code : String
  /-- How bad it is. -/
  severity : Severity
  /-- What is written at the quoted stretch. -/
  label : String
  /-- The first byte of the stretch. -/
  offset : Nat
  /-- The number of its bytes. -/
  length : Nat
  /-- The name of what is quoted: the method. -/
  sourceName : String
  deriving DecidableEq, Repr

/-- The report of a diagnostic that points into a body. -/
def Report.of (d : Diagnostic) (l : Location) (body : String) : Report :=
  let size := Text.byteLength body.toList
  let start := min l.span.start size
  { message := d.headline
    code := d.code
    severity := d.severity
    label := "here"
    offset := start
    length := min l.span.length (size - start)
    sourceName := l.qualifiedMethod }

/-- The body that a diagnostic points into, as far as the compile unit has it. -/
def CompileUnit.quotedBody? (u : CompileUnit) (d : Diagnostic) : Option String :=
  d.location.bind fun l ↦ u.body? l.namespaceName l.className l.methodName

end Dossier
