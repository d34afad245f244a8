import Dossier.CompileUnit.OfRecords
import Dossier.Drive
import Dossier.Record.Load

/-!
# Projects

A folder with records is a program, and this is how it is run: its records are loaded and put in
their places, the compile unit is made of them, compiled once, and entered.  Each step that fails
ends the run.  Records without a place end it too, unless they are tolerated; then the program is what
is left without them.
-/

set_option autoImplicit false

namespace Dossier

/-- Why there is no compile unit. -/
inductive AssembleError where
  | load (e : LoadError)
  | conflicts (conflicts : List Conflict)
  /-- Some records have no place. -/
  | orphans (orphans : List Orphan)
  | signatures (conflicts : List SignatureConflict)
  deriving DecidableEq, Repr

/-- The wording of an error. -/
def AssembleError.message : AssembleError → String
  | load e => e.message
  | conflicts cs => Conflict.messageOf cs
  | orphans os =>
    "Found " ++ toString os.length ++ " orphaned descriptor(s): " ++
      "; ".intercalate (os.map Orphan.message) ++ ". Set TolerateOrphans to run anyway"
  | signatures cs => SignatureConflict.messageOf cs

/-- Why a program did not run to its end. -/
inductive RunError where
  | assemble (e : AssembleError)
  /-- The unit could not be compiled. -/
  | compile (u : CompileUnit) (e : CompileFailure)
  | enter (e : EntryError)
  deriving DecidableEq, Repr

/-- The wording of an error. -/
def RunError.message : RunError → String
  | assemble e => e.message
  | compile _ e => e.message
  | enter e => e.message

namespace Project

/-- The part of the program that speaks of the steps. -/
def speaker : String := "jsonscript::pipeline"

/-- Logs what was loaded. -/
def logStore (path : String) (s : Store) : Logged AssembleError Unit := do
  if s.isEmpty then Logged.log .warn speaker ("no descriptor files found in " ++ path)
  s.summary.forM fun line ↦ Logged.log .info speaker line

/-- Logs the records without a place. -/
def logOrphans (p : Placement) (tolerate : Bool) : Logged AssembleError Unit := do
  p.orphans.forM fun o ↦ Logged.log .warn speaker ("orphaned " ++ o.message)
  if !p.orphans.isEmpty then
    Logged.log .warn speaker "orphaned descriptors found"
      [("methods", toString p.orphanedMethods), ("classes", toString p.orphanedClasses),
        ("tolerated", if tolerate then "true" else "false")]

/-- Logs the compile unit that was made. -/
def logUnit (p : Placement) (u : CompileUnit) : Logged AssembleError Unit :=
  Logged.log .info speaker "assembled compile unit"
    [("namespaces", toString u.namespaces.length), ("classes", toString p.classes.length),
      ("methods", toString u.methodCount)]

/-- The compile unit of a folder. -/
def assemble (f : Folder) (tolerate : Bool) : Logged AssembleError CompileUnit := do
  let s ← f.records.adapt .load
  logStore f.path s
  let p ← Logged.ofExcept .conflicts s.place
  logOrphans p tolerate
  if !p.orphans.isEmpty && !tolerate then throw (.orphans p.orphans)
  let u ← Logged.ofExcept .signatures (CompileUnit.ofPlacement p)
  logUnit p u
  return u

/-- The compile unit of a folder, as the first step of a run. -/
def start (f : Folder) (config : Config) : Logged RunError CompileUnit := do
  Logged.log .info speaker ("starting compiler service for " ++ f.path)
  (assemble f config.tolerateOrphans).adapt .assemble

/-- Compiles a unit as a script. -/
def compile (u : CompileUnit) (config : Config) : Logged RunError Assembly := do
  Logged.log .info "jsonscript::driver::compile"
    ("compiling " ++ toString u.methodCount ++ " methods")
    [("assembly", config.assemblyName), ("references", toString u.references.length)]
  let a ← Logged.ofExcept (.compile u) (Dossier.compile scriptCompiler u config)
  Logged.log .debug "jsonscript::script" "bound script program"
    [("assembly", Text.quote a.name), ("types", toString u.classes.length)]
  Logged.log .info speaker "compilation succeeded"
  return a

/-- Enters an assembly; the output is there also when that fails. -/
def enter (a : Assembly) (config : Config) : String × Logged RunError Script.Value :=
  let entered := Dossier.enter a config ""
  let announced : Logged RunError Unit :=
    match findEntry a config with
    | .ok m =>
      Logged.log .info "jsonscript::driver::invoke"
        ("invoking " ++ qualify config.entryType m.name)
    | .error _ => pure ()
  (entered.output, do announced; Logged.ofExcept .enter entered.result)

/-- Assembles and compiles, and enters nothing. -/
def check (f : Folder) (config : Config) : Logged RunError Assembly := do
  let u ← start f config
  compile u config

/-- Runs the program of a folder. -/
def run (f : Folder) (config : Config) : String × Logged RunError Script.Value :=
  let checked := check f config
  match checked.result with
  | .ok a =>
    let (output, entered) := enter a config
    (output, do let _ ← checked; entered)
  | .error e => ("", do let _ ← checked; throw e)

end Project

end Dossier
