import Dossier.Settings
import Dossier.Text.Line

/-!
# Command lines

The words after the name of the program: a command, the folder it is about, and options.

* Options and the folder stand in any order.  After two dashes alone nothing is an option.
* An option with a value takes the next word, which must not look like an option, or what stands
  behind an equals sign.
* No option may be given twice, and no command takes more than one folder.

Words are read from the front, and the first one that is not possible ends the reading, as does the
first that asks for help.
-/

set_option autoImplicit false

namespace Dossier.CommandLine

/-! ## Commands -/

/-- What may be said about a run. -/
structure RunOptions where
  /-- Settings that win over those of the folder. -/
  overrides : Settings
  /-- Is everything logged? -/
  verbose : Bool
  deriving DecidableEq, Repr

/-- What the program is asked to do with a folder. -/
inductive Command where
  /-- Compile and enter the program. -/
  | run (folder : String) (options : RunOptions)
  /-- Compile the program. -/
  | check (folder : String) (options : RunOptions)
  /-- Show the program as source text. -/
  | render (folder : String) (tolerateOrphans : Bool)
  /-- Make a project to start from. -/
  | scaffold (folder : String)
  deriving DecidableEq, Repr

/-- The folder that a command is about. -/
def Command.folder : Command → String
  | run folder _ | check folder _ | render folder _ | scaffold folder => folder

/-- Why words are no command. -/
inductive Misuse where
  | noCommand
  | unknownCommand (word : String)
  | unexpected (word : String)
  | repeated (option : String)
  | valueMissing (option : String)
  | valueUnwanted (option : String)
  | folderMissing
  deriving DecidableEq, Repr

/-- The wording of a misuse. -/
def Misuse.message : Misuse → String
  | noCommand => "a command is required"
  | unknownCommand word => "unrecognized subcommand '" ++ word ++ "'"
  | unexpected word => "unexpected argument '" ++ word ++ "' found"
  | repeated option => "the argument '--" ++ option ++ "' cannot be used multiple times"
  | valueMissing option => "a value is required for '--" ++ option ++ "' but none was supplied"
  | valueUnwanted option => "unexpected value for '--" ++ option ++ "' found; no more were expected"
  | folderMissing => "the following required arguments were not provided: <DIR>"

/-- What ends the reading before a command is known. -/
inductive Stop where
  | help
  | version
  | misuse (m : Misuse)
  deriving DecidableEq, Repr

/-! ## Options -/

/-- An option of a command. -/
structure Switch where
  /-- Its name, which follows two dashes. -/
  name : String
  /-- A letter for it, which follows one dash. -/
  letter : Option Char
  /-- Does it take a value? -/
  takesValue : Bool
  deriving DecidableEq, Repr

/-- The options of commands that compile. -/
def runSwitches : List Switch :=
  [ ⟨"entry-namespace", none, true⟩, ⟨"entry-method", none, true⟩, ⟨"assembly-name", none, true⟩,
    ⟨"silent", none, false⟩, ⟨"visualize-on-error", none, false⟩, ⟨"tolerate-orphans", none, false⟩,
    ⟨"verbose", some 'v', false⟩ ]

/-- The options of the command that shows the program. -/
def renderSwitches : List Switch := [⟨"tolerate-orphans", none, false⟩]

/-- What was read of the words of a command. -/
structure Words where
  /-- The folder. -/
  folder : Option String
  /-- The options, with their values where they have one. -/
  options : List (String × String)
  deriving DecidableEq, Repr

namespace Words

/-- Nothing was read. -/
def empty : Words := ⟨none, []⟩

/-- Was an option given? -/
def has (w : Words) (name : String) : Bool := (w.options.lookup name).isSome

/-- `some true` if an option was given. -/
def flag? (w : Words) (name : String) : Option Bool := if w.has name then some true else none

/-- Takes an option. -/
def addOption (w : Words) (name value : String) : Except Stop Words :=
  if w.has name then .error (.misuse (.repeated name))
  else .ok { w with options := w.options ++ [(name, value)] }

/-- Takes the folder. -/
def addFolder (w : Words) (folder : String) : Except Stop Words :=
  if w.folder.isSome then .error (.misuse (.unexpected folder))
  else if folder.isEmpty then .error (.misuse .folderMissing)
  else .ok { w with folder := some folder }

/-- The folder, which has to be there. -/
def folderOrStop (w : Words) : Except Stop String :=
  match w.folder with
  | some folder => .ok folder
  | none => .error (.misuse .folderMissing)

/-- The options of a run. -/
def runOptions (w : Words) : RunOptions where
  overrides :=
    { entryMethod := w.options.lookup "entry-method"
      entryNamespace := w.options.lookup "entry-namespace"
      assemblyName := w.options.lookup "assembly-name"
      silentCompilation := w.flag? "silent"
      visualizeOnError := w.flag? "visualize-on-error"
      tolerateOrphans := w.flag? "tolerate-orphans" }
  verbose := w.has "verbose"

end Words

/-! ## Reading -/

/-- Does a word look like an option? -/
def isOption (word : String) : Bool := word.startsWith "-" && word ≠ "-"

/-- The name of an option and the value behind an equals sign, from what follows two dashes. -/
def nameAndValue (text : List Char) : String × Option String :=
  (String.ofList (text.takeWhile (· ≠ '=')),
    match text.dropWhile (· ≠ '=') with
    | [] => none
    | _ :: value => some (String.ofList value))

/-- Reads what follows one dash: the letters of options without a value. -/
def readLetters (switches : List Switch) : Words → List Char → Except Stop Words
  | w, [] => .ok w
  | w, c :: cs =>
    match switches.find? fun s ↦ s.letter == some c with
    | some s => do readLetters switches (← w.addOption s.name "") cs
    | none =>
      if c = 'h' then .error .help
      else .error (.misuse (.unexpected (String.ofList ['-', c])))

/-- Reads words of which none is an option. -/
def readFolders : Words → List String → Except Stop Words
  | w, [] => .ok w
  | w, word :: words => do readFolders (← w.addFolder word) words

/-- Reads what follows two dashes.  The second result is the option that waits for its value. -/
def readName (switches : List Switch) (w : Words) (text : List Char) :
    Except Stop (Words × Option String) :=
  let (name, value) := nameAndValue text
  match switches.find? fun s ↦ s.name == name with
  | some s =>
    match s.takesValue, value with
    | true, none => .ok (w, some name)
    | true, some value => do return (← w.addOption name value, none)
    | false, none => do return (← w.addOption name "", none)
    | false, some _ => .error (.misuse (.valueUnwanted name))
  | none =>
    .error <|
      if name ≠ "help" then .misuse (.unexpected ("--" ++ String.ofList text))
      else if value.isSome then .misuse (.valueUnwanted name)
      else .help

/-- Reads the words that follow a command; `waiting` is the option whose value comes next. -/
def readWords (switches : List Switch) : (waiting : Option String) → Words → List String →
    Except Stop Words
  | none, w, [] => .ok w
  | some name, _, [] => .error (.misuse (.valueMissing name))
  | some name, w, value :: words =>
    if isOption value then .error (.misuse (.valueMissing name))
    else do readWords switches none (← w.addOption name value) words
  | none, w, word :: words =>
    match word.toList with
    | ['-', '-'] => readFolders w words
    | '-' :: '-' :: text => do
      let (w, waiting) ← readName switches w text
      readWords switches waiting w words
    | '-' :: c :: cs => do readWords switches none (← readLetters switches w (c :: cs)) words
    | _ => do readWords switches none (← w.addFolder word) words

/-- The names of the commands. -/
def commandNames : List String := ["run", "check", "show", "init"]

/-- Reads a command from the words that follow the name of the program. -/
def read : List String → Except Stop Command
  | [] => .error (.misuse .noCommand)
  | "run" :: words => do
    let w ← readWords runSwitches none .empty words
    return .run (← w.folderOrStop) w.runOptions
  | "check" :: words => do
    let w ← readWords runSwitches none .empty words
    return .check (← w.folderOrStop) w.runOptions
  | "show" :: words => do
    let w ← readWords renderSwitches none .empty words
    return .render (← w.folderOrStop) (w.has "tolerate-orphans")
  | "init" :: words => do
    let w ← readWords [] none .empty words
    return .scaffold (← w.folderOrStop)
  | "help" :: words =>
    match words with
    | [] => .error .help
    | [word] =>
      .error (if ("help" :: commandNames).contains word then .help else .misuse (.unknownCommand word))
    | _ :: word :: _ => .error (.misuse (.unknownCommand word))
  | word :: _ =>
    .error <|
      if word = "--help" || word.startsWith "-h" then .help
      else if word = "--version" || word.startsWith "-V" then .version
      else if isOption word then .misuse (.unexpected word)
      else .misuse (.unknownCommand word)

end Dossier.CommandLine
