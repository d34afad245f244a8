/-!
# Writers

Scripts write to what the outside gives them: a buffer, a terminal, a pipe.  A text that is handed to
it can be refused, with a message and after a part of it has been kept.

A `Writer` holds what has been written, and its answers to the texts that come next.  The answers are
not known to a script in advance; statements about runs are statements about every writer.
-/

set_option autoImplicit false

namespace Dossier.Script

/-- What a writer makes of a text that it is handed. -/
inductive Reply where
  /-- It takes the text. -/
  | takes
  /-- It fails with a message, and has kept a text by then. -/
  | fails (kept message : String)
  deriving DecidableEq, Repr

/-- Where scripts write to. -/
structure Writer where
  /-- What has been written. -/
  output : String
  /-- The answers to the texts that come next; all texts behind them are taken. -/
  replies : List Reply
  deriving DecidableEq, Repr, Inhabited

namespace Writer

/-- A writer that takes every text, after something has been written. -/
instance : Coe String Writer := ⟨fun written ↦ ⟨written, []⟩⟩

/-- Hands a text to the writer, which takes it or fails with a message. -/
def put (out : Writer) (text : String) : Except String Unit × Writer :=
  match out.replies with
  | [] => (.ok (), ⟨out.output ++ text, []⟩)
  | .takes :: rest => (.ok (), ⟨out.output ++ text, rest⟩)
  | .fails kept message :: rest => (.error message, ⟨out.output ++ kept, rest⟩)

end Writer

end Dossier.Script
