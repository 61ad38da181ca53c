import RuleScout.Rule.Basic

/-!
# Strict equality operators
-/

set_option autoImplicit false

namespace RuleScout.Equality

def isLooseOperator (l : Lexeme) : Bool := l.isPunct "==" || l.isPunct "!="

def isLiteral (l : Lexeme) : Bool :=
  l.kind = .string || l.kind = .number || l.isKeyword "true" || l.isKeyword "false" ||
    l.isKeyword "null"

/-- The first lexeme of the chain of member accesses that ends at a position; a chain that
starts with a dot has none. -/
def operandStart (c : Code) : Nat → Option Nat
  | 0 => some 0
  | 1 => if c.isPunct 0 "." then none else some 1
  | p + 2 => if c.isPunct (p + 1) "." then operandStart c p else some (p + 2)

def isSmart (c : Code) (p : Nat) : Bool :=
  match Code.prev p, c.before? p, c.after? p with
  | some q, some left, some right =>
    left.isKeyword "null" || right.isKeyword "null" ||
      ((operandStart c q).bind Code.prev).any (c.isKeyword · "typeof") ||
      right.isKeyword "typeof" || (isLiteral left && isLiteral right)
  | _, _, _ => false

def site? (c : Code) (smart : Bool) (p : Nat) : Option Site :=
  (c.at? p).bind fun l =>
    if isLooseOperator l && !(smart && isSmart c p) then
      some (.start p ("Expected '" ++ l.text ++ "=' and instead saw '" ++ l.text ++ "'."))
    else none

def sites (c : Code) (options : Options) : List Site :=
  c.positions.filterMap (site? c (options.string 0 "always" = "smart"))

def rule : Rule := .onCode
  { id := "eqeqeq"
    name := "Strict Equality"
    description := "Require the use of === and !=="
    category := .suspicious
    schema := [.enumeration [.string "always", .string "smart"]] }
  sites

end RuleScout.Equality
