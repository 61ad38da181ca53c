import RuleScout.Rule.Basic
import RuleScout.Rule.Expression

/-!
# Empty blocks

A block counts as empty when nothing stands between its braces, not even a comment. Bodies of
functions and classes may be empty.
-/

set_option autoImplicit false

namespace RuleScout.Empty

inductive Context where
  | statement
  | catchClause
  | switch
  deriving DecidableEq, Repr

def blockKeywords : List String := ["else", "try", "finally", "do", "catch"]

/-- The context of the block that the brace at `p` opens; bodies of functions and classes have
none. -/
def context? (c : Code) (p : Nat) : Option Context :=
  if c.followsHeader p ["switch"] then some .switch
  else if c.followsHeader p ["catch"] then some .catchClause
  else if c.followsHeader p ["if", "for", "while", "with"] then some .statement
  else
    match Code.prev p with
    | none => some .statement
    | some q =>
      if c.isKeyword q "catch" then some .catchClause
      else if c.isKeywordOf q blockKeywords || c.isPunct q ";" || c.isPunct q "\x7d" ||
          (c.isPunct q "\x7b" && c.braceKind q = some .block) then some .statement
      else none

def commentBetween (u : SourceUnit) (i j : Nat) : Bool :=
  ((u.tokens.toList.drop (i + 1)).take (j - (i + 1))).any (·.kind.isComment)

/-- Whether the brace at position `p` opens a block that holds nothing. `indices` are the token
indices of the positions. -/
def isEmptyBlock (u : SourceUnit) (c : Code) (indices : Array Nat) (p : Nat) : Bool :=
  c.isPunct p "\x7b" && c.braceKind p = some .block && c.matching p = some (p + 1) &&
    match indices[p]?, indices[p + 1]? with
    | some i, some j => !commentBetween u i j
    | _, _ => false

def site? (c : Code) (allowEmptyCatch : Bool) (p : Nat) : Option Site :=
  match context? c p with
  | some .switch => some (.start p "Empty switch statement.")
  | some .catchClause => if allowEmptyCatch then none else some (.start p "Empty block statement.")
  | some .statement => some (.start p "Empty block statement.")
  | none => none

def noEmpty : Rule where
  metadata :=
    { id := "no-empty"
      name := "No Empty Blocks"
      description := "Disallow empty block statements"
      category := .suspicious
      recommended := true
      schema := [.object [⟨"allowEmptyCatch", .boolean⟩]] }
  check u options :=
    let c := u.code
    let tokens := u.significantTokens
    let blocks := c.positions.filter (isEmptyBlock u c u.significant.toArray)
    (blocks.filterMap (site? c (options.flag 0 "allowEmptyCatch" false))).filterMap
      (Site.locate? tokens)

end RuleScout.Empty
