import RuleScout.Text.Extent

/-!
# Tokens

A token is a piece of source text with its kind and the place where it starts. Tokens lose
nothing: layout and comments are tokens too, called trivia, so the texts of a file's tokens,
written one after the other, are the file.
-/

set_option autoImplicit false

namespace RuleScout

open Text

inductive TokenKind where
  | whitespace
  | newline
  | lineComment
  | blockComment
  | identifier
  | keyword
  | number
  | string
  | template
  | regex
  | punctuator
  deriving DecidableEq, Repr

namespace TokenKind

def isComment : TokenKind → Bool
  | .lineComment | .blockComment => true
  | _ => false

def isTrivia : TokenKind → Bool
  | .whitespace | .newline | .lineComment | .blockComment => true
  | _ => false

end TokenKind

structure Lexeme where
  kind : TokenKind
  text : String
  line : Nat
  deriving DecidableEq, Repr

namespace Lexeme

def chars (l : Lexeme) : List Char := l.text.toList

def isTrivia (l : Lexeme) : Bool := l.kind.isTrivia

def isSignificant (l : Lexeme) : Bool := !l.kind.isTrivia

def isPunct (l : Lexeme) (text : String) : Bool := l.kind = .punctuator && l.text = text

def isKeyword (l : Lexeme) (text : String) : Bool := l.kind = .keyword && l.text = text

def quote? (l : Lexeme) : Option Char :=
  match l.kind with
  | .string => l.chars.head?
  | .template => some '\x60'
  | _ => none

def endLine (l : Lexeme) : Nat := l.line + l.chars.count '\n'

end Lexeme

/-- A lexeme and its exact place. `start` counts bytes; lines and columns count from one,
columns in characters. -/
structure Token extends Lexeme where
  start : Nat
  column : Nat
  deriving DecidableEq, Repr

namespace Token

def stop (t : Token) : Nat := t.start + extent t.chars

/-- The column just past the token, as if it stood on one line. -/
def endColumn (t : Token) : Nat := t.column + t.chars.length

end Token

end RuleScout
