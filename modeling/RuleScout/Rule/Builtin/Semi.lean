import RuleScout.Rule.Basic
import RuleScout.Rule.Expression

/-!
# Semicolons at the end of statements
-/

set_option autoImplicit false

namespace RuleScout.Semi

def continuationKeywords : List String :=
  ["else", "catch", "finally", "instanceof", "in", "of"]

def statementStarters : List String := ["\x7d", "\x7b", "++", "--", "!", "~"]

/-- Punctuators that would continue the statement if the semicolon were not there. -/
def riskyStarters : List String := ["(", "[", "+", "-", "/"]

/-- Whether what follows the lexeme at `p` ends a statement that ends there. -/
def statementEndsAfter (c : Code) (p : Nat) : Bool :=
  match c.at? p, c.after? p with
  | some current, some following =>
    if following.line = current.endLine then
      following.isPunct "\x7d" && c.braceKind (p + 1) = some .block
    else
      match following.kind with
      | .template => false
      | .punctuator => following.text ∈ statementStarters
      | .keyword => following.text ∉ continuationKeywords
      | _ => true
  | _, _ => true

def isMissingAfter (c : Code) (p : Nat) : Bool :=
  c.endsExpression p && !c.insideExpressionBrackets p && statementEndsAfter c p

def isRisky (c : Code) (p : Nat) : Bool :=
  match c.at? p, c.after? p with
  | some current, some following =>
    current.line < following.line &&
      (following.text ∈ riskyStarters || following.kind = .template || following.kind = .regex)
  | _, _ => false

def isExtra (c : Code) (p : Nat) : Bool :=
  c.isPunct p ";" && !(c.parent p).any (c.isPunct · "(") &&
    (Code.prev p).any c.endsExpression && !isRisky c p && statementEndsAfter c p

def sites (c : Code) (options : Options) : List Site :=
  if options.string 0 "always" = "never" then
    (c.positions.filter (isExtra c)).map (.start · "Extra semicolon.")
  else (c.positions.filter (isMissingAfter c)).map (.stop · "Missing semicolon.")

def rule : Rule := .onCode
  { id := "semi"
    name := "Semicolons"
    description := "Require or disallow semicolons at the end of statements"
    category := .style
    schema := [.enumeration [.string "always", .string "never"]] }
  sites

end RuleScout.Semi
