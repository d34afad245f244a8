import Dossier.Text.Span

/-!
# Tokens of a method body

A body is read as a list of tokens, each with the stretch of the body it stands on.  A token that
has a spelling of its own — a name, a number, the text of a string — carries it, so that nothing
after this module has to look at the body again.

The last token of every body is `TokenKind.done`, on the empty span at the end.
-/

set_option autoImplicit false

namespace Dossier.Script

open Text (Span)

/-! ## Kinds -/

/-- The words that cannot be names. -/
inductive Keyword where
  | varWord
  | returnWord
  | ifWord
  | elseWord
  | whileWord
  | throwWord
  | trueWord
  | falseWord
  | nullWord
  | thisWord
  deriving DecidableEq, Repr, Inhabited

namespace Keyword

/-- How the word is written. -/
def spelling : Keyword → String
  | varWord => "var"
  | returnWord => "return"
  | ifWord => "if"
  | elseWord => "else"
  | whileWord => "while"
  | throwWord => "throw"
  | trueWord => "true"
  | falseWord => "false"
  | nullWord => "null"
  | thisWord => "this"

/-- All keywords. -/
def all : List Keyword :=
  [varWord, returnWord, ifWord, elseWord, whileWord, throwWord, trueWord, falseWord, nullWord,
    thisWord]

/-- The keyword with a spelling, if there is one. -/
def ofSpelling? (s : String) : Option Keyword := all.find? fun k ↦ k.spelling == s

end Keyword

/-- Operators and delimiters. -/
inductive Symbol where
  | plus
  | minus
  | star
  | slash
  | percent
  | bang
  | assign
  | equal
  | notEqual
  | less
  | lessEqual
  | greater
  | greaterEqual
  | plusAssign
  | minusAssign
  | starAssign
  | slashAssign
  | both
  | either
  | dot
  | comma
  | semicolon
  | openParen
  | closeParen
  | openBrace
  | closeBrace
  deriving DecidableEq, Repr, Inhabited

namespace Symbol

/-- How the symbol is written. -/
def spelling : Symbol → String
  | plus => "+"
  | minus => "-"
  | star => "*"
  | slash => "/"
  | percent => "%"
  | bang => "!"
  | assign => "="
  | equal => "=="
  | notEqual => "!="
  | less => "<"
  | lessEqual => "<="
  | greater => ">"
  | greaterEqual => ">="
  | plusAssign => "+="
  | minusAssign => "-="
  | starAssign => "*="
  | slashAssign => "/="
  | both => "&&"
  | either => "||"
  | dot => "."
  | comma => ","
  | semicolon => ";"
  | openParen => "("
  | closeParen => ")"
  | openBrace => "\x7b"
  | closeBrace => "\x7d"

end Symbol

/-- What a token is, with its spelling where that is free. -/
inductive TokenKind where
  /-- A name. -/
  | name (text : String)
  /-- Digits alone. -/
  | int (digits : String)
  /-- Digits on both sides of a point. -/
  | float (digits : String)
  /-- A closed string literal; `text` is what it stands for, with the escapes resolved. -/
  | string (text : String)
  /-- One of the reserved words. -/
  | keyword (word : Keyword)
  /-- An operator or delimiter. -/
  | symbol (mark : Symbol)
  /-- A character that starts no token, or a string or comment that is never closed. -/
  | invalid (text : String)
  /-- The end of the body. -/
  | done
  deriving DecidableEq, Repr, Inhabited

/-- A text between single quotes. -/
def quoted (s : String) : String := "'" ++ s ++ "'"

namespace TokenKind

/-- How a message speaks of the token. -/
def describe : TokenKind → String
  | name _ => "identifier"
  | int _ => "integer literal"
  | float _ => "floating-point literal"
  | string _ => "string literal"
  | keyword word => quoted word.spelling
  | symbol mark => quoted mark.spelling
  | invalid _ => "invalid token"
  | done => "end of body"

end TokenKind

/-- A token and where it stands. -/
structure Token where
  /-- What it is. -/
  kind : TokenKind
  /-- The bytes it was read from. -/
  span : Span
  deriving DecidableEq, Repr, Inhabited

end Dossier.Script
