import Dossier.CommandLine
import Dossier.Diagnostic.Quoted
import Dossier.Project
import Dossier.Scaffold

/-!
# Answering a command

What the program does when it is called: what it writes to its two outputs, its exit status, and what
it changes in the folder.  The log goes to the error output.  A command that fails says so in a last
line of the error output, and its status is 1; words that are no command have status 2.
-/

set_option autoImplicit false

namespace Dossier

open CommandLine (Command Stop)

/-- What a call of the program comes to. -/
structure Response where
  /-- The exit status. -/
  status : Nat
  /-- The output. -/
  output : String
  /-- The error output. -/
  errors : String
  deriving DecidableEq, Repr

namespace Response

/-- Lines of text. -/
def unlines (lines : List String) : String := String.join (lines.map (· ++ "\n"))

/-- The line of a failure. -/
def failureLine (message : String) : String := "error: " ++ message ++ "\n"

/-- The log lines of a computation. -/
def logged {ε α : Type} (least : Level) (x : Logged ε α) : String :=
  unlines ((x.entries least).map LogEntry.line)

/-- The answer to a computation: `output` is what it writes, and `finish` what is written when it
succeeds; `explain` is what stands before the line of a failure. -/
def ofLogged {ε α : Type} (least : Level) (x : Logged ε α) (output : String) (finish : α → String)
    (explain : ε → String) (message : ε → String) : Response :=
  match x.result with
  | .ok a => ⟨0, output ++ finish a, logged least x⟩
  | .error e => ⟨1, output, logged least x ++ explain e ++ failureLine (message e)⟩

/-- The answer to what failed before there was a log. -/
def failed (message : String) : Response := ⟨1, "", failureLine message⟩

/-! ## Commands that compile -/

/-- The least level that is logged. -/
def level (verbose : Bool) (config : Config) : Level :=
  if verbose then .debug else if config.silent then .warn else .info

/-- The diagnostics of a failed compilation, and the program if it is to be shown. -/
def explainCompile : RunError → String
  | .compile u failure =>
    let rendering := match failure.rendering with
      | some text => ["Generated visual for debugging:", text]
      | none => []
    unlines (failure.diagnostics.map u.report ++ rendering)
  | _ => ""

/-- Checks the settings and goes on with the configuration. -/
def withConfig (f : Folder) (options : CommandLine.RunOptions) (go : Level → Config → Response) :
    Response :=
  match f.config options.overrides with
  | .ok config => go (level options.verbose config) config
  | .error e => failed e.message

/-- What is written of the result of a run. -/
def shownResult : Script.Value → String
  | .void => ""
  | v => v.text ++ "\n"

/-- Compiles and enters the program of a folder. -/
def run (f : Folder) (options : CommandLine.RunOptions) : Response :=
  withConfig f options fun least config ↦
    let (output, value) := Project.run f config
    ofLogged least value output shownResult explainCompile RunError.message

/-- Compiles the program of a folder. -/
def check (f : Folder) (options : CommandLine.RunOptions) : Response :=
  withConfig f options fun least config ↦
    ofLogged least (Project.check f config) "" (fun _ ↦ "No errors found\n")
      explainCompile RunError.message

/-! ## The other commands -/

/-- Shows the program of a folder as source text. -/
def render (f : Folder) (tolerate : Bool) : Response :=
  match f.settings? with
  | .error e => failed e.message
  | .ok settings =>
    let tolerate := tolerate || ((settings.bind Settings.tolerateOrphans).getD false)
    ofLogged .warn (Project.assemble f tolerate) "" CompileUnit.render (fun _ ↦ "")
      AssembleError.message

/-- Makes a project of a folder; `written` is what came of the changes. -/
def scaffold (f : Folder) (written : Except FolderError Unit) : Response :=
  let done := unlines
    ["Initialized jsonscript project in " ++ f.path, "Run it with: jsonscript run " ++ f.path]
  ofLogged .info (f.scaffolded written) "" (fun _ ↦ done) (fun _ ↦ "") ScaffoldError.message

/-- How the program is called. -/
def usage : String :=
  unlines
    [ "Run programs assembled from JSON descriptors", "",
      "Usage: jsonscript <COMMAND>", "",
      "Commands:",
      "  run <DIR> [OPTIONS]    Compile a descriptor directory and invoke its entry point",
      "  check <DIR> [OPTIONS]  Compile without invoking anything",
      "  show <DIR>             Print the assembled program as source text",
      "  init <DIR>             Create a runnable example descriptor directory",
      "  help                   Print this message", "",
      "Options of run and check:",
      "      --entry-namespace <ENTRY_NAMESPACE>  Entry type, in the form Namespace.Type",
      "      --entry-method <ENTRY_METHOD>        Entry method name",
      "      --assembly-name <ASSEMBLY_NAME>      Name of the compiled assembly",
      "      --silent                             Only log warnings and errors",
      "      --visualize-on-error                 Print the generated source when compilation fails",
      "      --tolerate-orphans                   Keep going when descriptors are orphaned",
      "  -v, --verbose                            Log per-file loading detail" ]

/-- The answer to words that are no command. -/
def ofStop : Stop → Response
  | .help => ⟨0, usage, ""⟩
  | .version => ⟨0, "jsonscript 0.1.0\n", ""⟩
  | .misuse .noCommand => ⟨2, "", usage⟩
  | .misuse m => ⟨2, "", failureLine m.message⟩

end Response

/-- What a command asks to be done to its folder. -/
def CommandLine.Command.changes (c : Command) (f : Folder) : List Change :=
  match c with
  | .scaffold _ => f.scaffoldChanges
  | _ => []

/-- The answer to a command about a folder; `written` is what came of the changes it asks for. -/
def CommandLine.Command.respond (c : Command) (f : Folder) (written : Except FolderError Unit) :
    Response :=
  match c with
  | .run _ options => Response.run f options
  | .check _ options => Response.check f options
  | .render _ tolerate => Response.render f tolerate
  | .scaffold _ => Response.scaffold f written

end Dossier
