import RuleScout.Source.Bracket

/-!
# Code

The code of a file is what remains of its tokens without layout and comments: the significant
lexemes, numbered without gaps, and their bracket structure. It knows lines but no columns and
no comments, so whatever is decided by looking at code alone cannot depend on spacing or on
comments.
-/

set_option autoImplicit false

namespace RuleScout

structure Code where
  lexemes : Array Lexeme
  brackets : Structure
  deriving DecidableEq, Repr

namespace Code

/-- The structure of a sequence whose brackets fit; one whose brackets do not fit has none. -/
def structureOf (ls : List Lexeme) : Structure :=
  match nest 0 [] none ls with
  | .ok n => .ofNesting n
  | .error _ => .ofNesting .empty

def ofLexemes (ls : List Lexeme) : Code := ⟨ls.toArray, structureOf ls⟩

def size (c : Code) : Nat := c.lexemes.size

def at? (c : Code) (p : Nat) : Option Lexeme := c.lexemes[p]?

def positions (c : Code) : List Nat := List.range c.size

def prev (p : Nat) : Option Nat :=
  match p with
  | 0 => none
  | p + 1 => some p

def next (c : Code) (p : Nat) : Option Nat := if p + 1 < c.size then some (p + 1) else none

def before? (c : Code) (p : Nat) : Option Lexeme := (prev p).bind c.at?

def after? (c : Code) (p : Nat) : Option Lexeme := c.at? (p + 1)

def matching (c : Code) (p : Nat) : Option Nat := c.brackets.matching p

def braceKind (c : Code) (p : Nat) : Option BraceKind := c.brackets.braceKind p

def parent (c : Code) (p : Nat) : Option Nat := c.brackets.parent p

def isPunct (c : Code) (p : Nat) (text : String) : Bool := (c.at? p).any (·.isPunct text)

def isKeyword (c : Code) (p : Nat) (text : String) : Bool := (c.at? p).any (·.isKeyword text)

def isKind (c : Code) (p : Nat) (kind : TokenKind) : Bool := (c.at? p).any (·.kind = kind)

def isKeywordOf (c : Code) (p : Nat) (words : List String) : Bool :=
  (c.at? p).any fun l => l.kind = .keyword && l.text ∈ words

end Code

end RuleScout
