import Dossier.Script.Token.Scan

/-!
# Tokens as they are kept

A token is kept with its place in 32 bits, and its text is what the body has at that place.  In a body
of `2 ^ 32` bytes or more a place can be kept as another one, and then so is the text.

Where a body is shorter, `narrowTokens?` is `tokenize`.
-/

set_option autoImplicit false

namespace Dossier.Script

open Text (Span slice?)

/-- A name or keyword at a place.  The word that is compared with the keywords starts where the place
is kept to start and ends where the token does; the name is taken by the kept place. -/
def narrowWord? (body : List Char) (span : Span) : Option TokenKind := do
  let word ← slice? body ⟨span.narrow.start, span.stop⟩
  match Keyword.ofSpelling? (String.ofList word) with
  | some keyword => some (.keyword keyword)
  | none => (slice? body span.narrow).map fun text ↦ .name (String.ofList text)

/-- What a token is kept as, by its kind and its place in the body. -/
def TokenKind.narrow? (body : List Char) (span : Span) : TokenKind → Option TokenKind
  | .name _ | .keyword _ => narrowWord? body span
  | .int _ => (slice? body span.narrow).map fun text ↦ .int (String.ofList text)
  | .float _ => (slice? body span.narrow).map fun text ↦ .float (String.ofList text)
  | .string _ =>
    (slice? body ⟨span.narrow.start + 1, span.narrow.stop - 1⟩).map fun inner ↦
      .string (String.ofList (unescape inner))
  | .symbol mark => some (.symbol mark)
  | .invalid text => some (.invalid text)
  | .done => some .done

/-- The token as it is kept. -/
def Token.narrow? (body : List Char) (t : Token) : Option Token :=
  (t.kind.narrow? body t.span).map fun kind ↦ ⟨kind, t.span.narrow⟩

/-- The tokens of a body as they are kept; `none` if one is kept with a place that takes no text. -/
def narrowTokens? (source : String) : Option (List Token) :=
  (tokenize source).mapM (Token.narrow? source.toList)

end Dossier.Script
