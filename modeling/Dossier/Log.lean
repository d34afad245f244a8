import Dossier.Noted
import Dossier.Text.Quote

/-!
# Log

What a run tells on its way.  An entry has a level, and those below the level that was asked for are
left out.  It also names the part of the program that speaks.  An entry is a message, and fields,
which are values under a name; the controls in a message that could steer a terminal are written as
escapes.

A `Logged ε α` is a computation that may fail with an `ε` and logs, in order, also when it fails.
-/

set_option autoImplicit false

namespace Dossier

/-- How much an entry matters. -/
inductive Level where
  | debug
  | info
  | warn
  deriving DecidableEq, Repr

namespace Level

/-- The rank of a level: what matters more has a greater one. -/
def rank : Level → Nat
  | debug => 0
  | info => 1
  | warn => 2

/-- The word for a level, five characters wide. -/
def word : Level → String
  | debug => "DEBUG"
  | info => " INFO"
  | warn => " WARN"

end Level

/-! ## Entries -/

/-- An entry of the log. -/
structure LogEntry where
  /-- How much it matters. -/
  level : Level
  /-- The part of the program that speaks. -/
  speaker : String
  /-- What it says. -/
  message : String
  /-- The values that go with it, under their names. -/
  fields : List (String × String)
  deriving DecidableEq, Repr

namespace LogEntry

/-- The controls below code point 128 that can steer a terminal. -/
def steering : List Char := ['\x07', '\x08', '\x0c', '\x1b', '\x7f']

/-- A character within a message. -/
def messageChar (c : Char) : List Char :=
  if steering.contains c then
    ['\\', 'x', Text.hexDigit (c.toNat / 16), Text.hexDigit (c.toNat % 16)]
  else if 0x80 ≤ c.toNat ∧ c.toNat ≤ 0x9F then Text.codeEscape c
  else [c]

/-- A field after what stands before it. -/
def fieldText (field : String × String) : String := " " ++ field.1 ++ "=" ++ field.2

/-- The entry as a line. -/
def line (e : LogEntry) : String :=
  e.level.word ++ " " ++ e.speaker ++ ": " ++
    String.ofList (e.message.toList.flatMap messageChar) ++ String.join (e.fields.map fieldText)

end LogEntry

/-! ## Computations that log -/

/-- A computation that may fail and logs. -/
abbrev Logged (ε α : Type) : Type := ExceptT ε (Noted LogEntry) α

namespace Logged

variable {ε α : Type}

/-- Logs an entry. -/
def log (level : Level) (speaker message : String) (fields : List (String × String) := []) :
    Logged ε Unit :=
  ExceptT.lift (Noted.note ⟨level, speaker, message, fields⟩)

/-- The result of a computation that logs nothing, its error put into the words of another. -/
def ofExcept {δ : Type} (wrap : δ → ε) (x : Except δ α) : Logged ε α :=
  ExceptT.mk (pure (x.mapError wrap))

/-- The result or the error. -/
def result (x : Logged ε α) : Except ε α := x.run.value

@[simp] theorem result_pure (a : α) : (pure a : Logged ε α).result = .ok a := rfl

@[simp] theorem result_throw (e : ε) : (throw e : Logged ε α).result = .error e := rfl

@[simp] theorem result_log (level : Level) (speaker message : String)
    (fields : List (String × String)) :
    (log level speaker message fields : Logged ε Unit).result = .ok () := rfl

@[simp] theorem result_ofExcept {δ : Type} (wrap : δ → ε) (x : Except δ α) :
    (ofExcept wrap x).result = x.mapError wrap := rfl

@[simp] theorem result_bind {β : Type} (x : Logged ε α) (f : α → Logged ε β) :
    (x >>= f).result = x.result >>= fun a ↦ (f a).result := by
  have h : (x >>= f).result = (ExceptT.bindCont f x.run.value).value := rfl
  rw [h, result]
  cases x.run.value <;> rfl

@[simp] theorem result_adapt {δ : Type} (wrap : ε → δ) (x : Logged ε α) :
    result (ExceptT.adapt wrap x) = x.result.mapError wrap := rfl

/-- The entries of at least a level. -/
def entries (x : Logged ε α) (least : Level) : List LogEntry :=
  x.run.notes.filter fun e ↦ least.rank ≤ e.level.rank

end Logged

end Dossier
