import RuleScout.Source.Code

/-!
# Expressions and statements in code

Without a grammar, whether a lexeme can end an expression is told from the lexeme and from
what its bracket belongs to: the parenthesis of `if (…)` ends a header, that of `f(…)` a call.
-/

set_option autoImplicit false

namespace RuleScout.Code

def headerKeywords : List String :=
  ["if", "for", "while", "with", "switch", "catch", "function"]

/-- Keywords that end an expression or a statement by themselves. -/
def valueKeywords : List String :=
  ["this", "null", "true", "false", "super", "break", "continue", "return", "debugger"]

def beforeMatching (c : Code) (p : Nat) : Option Nat := (c.matching p).bind prev

def closesHeader (c : Code) (close : Nat) : Bool :=
  (c.beforeMatching close).any fun p =>
    match c.at? p with
    | none => false
    | some l =>
      match l.kind with
      | .keyword => l.text ∈ headerKeywords
      | .identifier => (prev p).any (c.isKeyword · "function")
      | _ => false

/-- Whether the brace at `p` opens the body of a head that starts with one of the words. -/
def followsHeader (c : Code) (p : Nat) (words : List String) : Bool :=
  (prev p).any fun q =>
    c.isPunct q ")" && (c.beforeMatching q).any (c.isKeywordOf · words)

def closesArrowBody (c : Code) (close : Nat) : Bool :=
  (c.beforeMatching close).any (c.isPunct · "=>")

def endsExpression (c : Code) (p : Nat) : Bool :=
  match c.at? p with
  | none => false
  | some l =>
    match l.kind with
    | .identifier | .number | .string | .template | .regex => true
    | .keyword => l.text ∈ valueKeywords
    | .punctuator =>
      match l.text with
      | "++" | "--" | "]" => true
      | ")" => !c.closesHeader p
      | "\x7d" => c.braceKind p = some .object || c.closesArrowBody p
      | _ => false
    | _ => false

def insideExpressionBrackets (c : Code) (p : Nat) : Bool :=
  (c.parent p).any fun o =>
    c.isPunct o "(" || c.isPunct o "[" || c.braceKind o = some .object

end RuleScout.Code
