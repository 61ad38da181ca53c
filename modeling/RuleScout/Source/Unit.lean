import RuleScout.Source.Lexer
import RuleScout.Source.Code
import RuleScout.Source.Line

/-!
# Source units

A source unit is one file read for good: its text, its tokens, its bracket structure and its
lines. Tokens are addressed by their index, and an index past the end has no neighbour to the
right, no bracket and no line.
-/

set_option autoImplicit false

namespace RuleScout

open Text

structure SourceUnit where
  path : String
  text : String
  tokens : Array Token
  brackets : Structure
  lines : List Line
  deriving DecidableEq, Repr

namespace SourceUnit

/-- The line and column of an offset. Only line feeds separate lines here. -/
def position (cs : List Char) (offset : Nat) : Nat × Nat :=
  let before := takeExtent offset cs
  (before.count '\n' + 1, (before.reverse.takeWhile (· ≠ '\n')).length + 1)

def lexicalError (cs : List Char) (e : LexError) : SyntaxError :=
  let (line, column) := position cs e.offset
  ⟨.lexical e.fault, line, column⟩

def bracketError (tokens : List Token) (e : NestError) : SyntaxError :=
  match tokens[e.index]? with
  | some t => ⟨e.fault, t.line, t.column⟩
  | none => ⟨e.fault, 1, 1⟩

def parse (path text : String) : Except SyntaxError SourceUnit :=
  match lex text with
  | .error e => .error (lexicalError text.toList e)
  | .ok tokens =>
    match nest 0 [] none (tokens.map Token.toLexeme) with
    | .error e => .error (bracketError tokens e)
    | .ok n =>
      let brackets := Structure.ofNesting n
      .ok
        { path, text, brackets
          tokens := tokens.toArray
          lines := Line.layOut brackets.ancestors 1 0 tokens.zipIdx (Line.texts text.toList) }

def token? (u : SourceUnit) (i : Nat) : Option Token := u.tokens[i]?

def isSignificant (u : SourceUnit) (i : Nat) : Bool := (u.token? i).any (·.isSignificant)

def significant (u : SourceUnit) : List Nat :=
  (List.range u.tokens.size).filter u.isSignificant

def lastBelow (u : SourceUnit) : Nat → Option Nat
  | 0 => none
  | i + 1 => if u.isSignificant i then some i else lastBelow u i

/-- The first significant index among the `n` from `i` on. -/
def firstFrom (u : SourceUnit) : Nat → Nat → Option Nat
  | 0, _ => none
  | n + 1, i => if u.isSignificant i then some i else firstFrom u n (i + 1)

def prevSignificant (u : SourceUnit) (i : Nat) : Option Nat := u.lastBelow (min i u.tokens.size)

def nextSignificant (u : SourceUnit) (i : Nat) : Option Nat :=
  u.firstFrom (u.tokens.size - (i + 1)) (i + 1)

def matching (u : SourceUnit) (i : Nat) : Option Nat := u.brackets.matching i

def braceKind (u : SourceUnit) (i : Nat) : Option BraceKind := u.brackets.braceKind i

def ancestors (u : SourceUnit) (i : Nat) : List Nat := u.brackets.ancestors i

def parent (u : SourceUnit) (i : Nat) : Option Nat := u.brackets.parent i

def endsWithNewline (u : SourceUnit) : Bool := u.text.toList.getLast?.any isLineBreak

def significantTokens (u : SourceUnit) : List Token :=
  u.tokens.toList.filter (·.isSignificant)

def code (u : SourceUnit) : Code := .ofLexemes (u.significantTokens.map Token.toLexeme)

/-- The number of significant tokens before an index: the position in the code of the token
there, if it is significant. -/
def rank (u : SourceUnit) (i : Nat) : Nat :=
  (u.tokens.toList.take i).countP (·.isSignificant)

/-! ## The shortest texts -/

theorem parse_empty (path : String) :
    parse path "" = .ok ⟨path, "", #[], ⟨#[], []⟩, [⟨1, "", none, false, []⟩]⟩ := rfl

theorem parse_newline (path : String) :
    parse path "\n" = .ok ⟨path, "\n", #[⟨⟨.newline, "\n", 1⟩, 0, 1⟩], ⟨#[[]], []⟩,
      [⟨1, "", none, false, []⟩]⟩ := rfl

end SourceUnit

end RuleScout
