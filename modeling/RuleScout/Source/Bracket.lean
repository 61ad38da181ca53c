import RuleScout.Source.LexError
import RuleScout.Source.Token

/-!
# Bracket structure

`nest` reads a sequence of lexemes from left to right with a stack of the brackets that are
open. It records every pair it closes, and for every lexeme the stack at that place, so the
brackets around it are known without a search. A sequence whose brackets are not well nested
is refused at the first closing bracket that does not fit, or at the innermost bracket left
open at the end. Everything is addressed by the index in the sequence.
-/

set_option autoImplicit false

namespace RuleScout

inductive Bracket where
  | round
  | square
  | curly
  deriving DecidableEq, Repr

namespace Bracket

def opening : Bracket → String
  | .round => "("
  | .square => "["
  | .curly => "\x7b"

def closing : Bracket → String
  | .round => ")"
  | .square => "]"
  | .curly => "\x7d"

def all : List Bracket := [.round, .square, .curly]

def opened? (t : Lexeme) : Option Bracket := all.find? fun b => t.isPunct b.opening

def closed? (t : Lexeme) : Option Bracket := all.find? fun b => t.isPunct b.closing

end Bracket

/-- What a brace encloses: statements, or an object literal, a pattern, an import list. -/
inductive BraceKind where
  | block
  | object
  deriving DecidableEq, Repr

namespace BraceKind

def objectPunctuators : List String :=
  ["=", "(", ",", ":", "[", "?", "||", "&&", "??", "...", "+=", "-=", "||=", "&&=", "??="]

def objectKeywords : List String :=
  ["return", "import", "export", "const", "let", "var", "typeof", "throw", "yield", "await"]

def after (previous : Option Lexeme) : BraceKind :=
  match previous with
  | none => .block
  | some t =>
    match t.kind with
    | .punctuator => if t.text ∈ objectPunctuators then .object else .block
    | .keyword => if t.text ∈ objectKeywords then .object else .block
    | _ => .block

end BraceKind

inductive SyntaxFault where
  | lexical (fault : LexFault)
  | unexpectedClosing (found : Bracket)
  | wrongClosing (expected found : Bracket)
  | unclosed (opener : Bracket)
  deriving DecidableEq, Repr

def SyntaxFault.message : SyntaxFault → String
  | .lexical fault => fault.message
  | .unexpectedClosing found => "Unexpected '" ++ found.closing ++ "'"
  | .wrongClosing expected found =>
    "Expected '" ++ expected.closing ++ "' but found '" ++ found.closing ++ "'"
  | .unclosed opener => "Unclosed '" ++ opener.opening ++ "'"

structure SyntaxError where
  fault : SyntaxFault
  line : Nat
  column : Nat
  deriving DecidableEq, Repr

namespace SyntaxError

def message (e : SyntaxError) : String := e.fault.message

def display (e : SyntaxError) : String := s!"{e.line}:{e.column}: {e.message}"

end SyntaxError

structure NestError where
  fault : SyntaxFault
  index : Nat
  deriving DecidableEq, Repr

structure OpenBracket where
  index : Nat
  bracket : Bracket
  brace : Option BraceKind
  deriving DecidableEq, Repr

structure BracketPair where
  opener : Nat
  closer : Nat
  brace : Option BraceKind
  deriving DecidableEq, Repr

/-- `enclosing` has one entry for each lexeme, the innermost bracket first. A closing bracket
is not enclosed by the bracket it closes. -/
structure Nesting where
  enclosing : List (List OpenBracket)
  pairs : List BracketPair
  deriving DecidableEq, Repr

namespace Nesting

def empty : Nesting := ⟨[], []⟩

def enclose (stack : List OpenBracket) (n : Nesting) : Nesting :=
  { n with enclosing := stack :: n.enclosing }

def pair (p : BracketPair) (n : Nesting) : Nesting :=
  { n with pairs := p :: n.pairs }

end Nesting

/-- The nesting of the lexemes from index `i` on, with the brackets of `stack` open before
them; `previous` is the last significant lexeme before them. -/
def nest (i : Nat) (stack : List OpenBracket) (previous : Option Lexeme) :
    List Lexeme → Except NestError Nesting
  | [] =>
    match stack with
    | [] => .ok .empty
    | o :: _ => .error ⟨.unclosed o.bracket, o.index⟩
  | t :: ts =>
    let next := if t.isSignificant then some t else previous
    match Bracket.opened? t with
    | some b =>
      let brace := if b = .curly then some (BraceKind.after previous) else none
      (Nesting.enclose stack ·) <$> nest (i + 1) (⟨i, b, brace⟩ :: stack) next ts
    | none =>
      match Bracket.closed? t with
      | none => (Nesting.enclose stack ·) <$> nest (i + 1) stack next ts
      | some found =>
        match stack with
        | [] => .error ⟨.unexpectedClosing found, i⟩
        | o :: below =>
          if o.bracket = found then
            (fun n => (n.enclose below).pair ⟨o.index, i, o.brace⟩) <$>
              nest (i + 1) below next ts
          else .error ⟨.wrongClosing o.bracket found, i⟩

/-- A nesting made ready for questions about single indices. -/
structure Structure where
  enclosing : Array (List OpenBracket)
  pairs : List BracketPair
  deriving DecidableEq, Repr

namespace Structure

def ofNesting (n : Nesting) : Structure := ⟨n.enclosing.toArray, n.pairs⟩

def pairOf (s : Structure) (i : Nat) : Option BracketPair :=
  s.pairs.find? fun p => p.opener = i || p.closer = i

def matching (s : Structure) (i : Nat) : Option Nat :=
  (s.pairOf i).map fun p => if p.opener = i then p.closer else p.opener

def braceKind (s : Structure) (i : Nat) : Option BraceKind := (s.pairOf i).bind (·.brace)

def ancestors (s : Structure) (i : Nat) : List Nat :=
  (s.enclosing[i]?.getD []).map (·.index)

def parent (s : Structure) (i : Nat) : Option Nat := (s.ancestors i).head?

end Structure

end RuleScout
