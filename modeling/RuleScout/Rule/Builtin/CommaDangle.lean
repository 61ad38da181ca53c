import RuleScout.Rule.Basic

/-!
# Trailing commas in array and object literals
-/

set_option autoImplicit false

namespace RuleScout.CommaDangle

inductive Policy where
  | never
  | always
  | alwaysMultiline
  | onlyMultiline
  deriving DecidableEq, Repr

namespace Policy

def ofName (name : String) : Policy :=
  match name with
  | "always" => .always
  | "always-multiline" => .alwaysMultiline
  | "only-multiline" => .onlyMultiline
  | _ => .never

def wantsComma (p : Policy) (multiline : Bool) : Option Bool :=
  match p, multiline with
  | .never, _ => some false
  | .always, _ => some true
  | .alwaysMultiline, multiline => some multiline
  | .onlyMultiline, true => none
  | .onlyMultiline, false => some false

end Policy

def isListEnd (c : Code) (p : Nat) : Bool :=
  c.isPunct p "]" || (c.isPunct p "\x7d" && c.braceKind p = some .object)

/-- The end of a list that is not empty: the position before the closing bracket, and the
position of the last element, which lies before a trailing comma. -/
def tail? (c : Code) (close : Nat) : Option (Nat × Nat) :=
  if isListEnd c close then
    (Code.prev close).bind fun p =>
      if c.matching close = some p then none
      else if c.isPunct p "," then (Code.prev p).map (p, ·)
      else some (p, p)
  else none

def site? (c : Code) (policy : Policy) (close : Nat) : Option Site :=
  match tail? c close, c.at? close with
  | some (p, last), some closer =>
    let trailing := c.isPunct p ","
    let multiline := (c.at? last).any fun l => l.endLine < closer.line
    match policy.wantsComma multiline, trailing with
    | some false, true => some (.start p "Unexpected trailing comma.")
    | some true, false => some (.stop last "Missing trailing comma.")
    | _, _ => none
  | _, _ => none

def sites (c : Code) (options : Options) : List Site :=
  c.positions.filterMap (site? c (.ofName (options.string 0 "never")))

def rule : Rule := .onCode
  { id := "comma-dangle"
    name := "Comma Dangle"
    description := "Require or disallow trailing commas"
    category := .style
    schema :=
      [.enumeration [.string "never", .string "always", .string "always-multiline",
        .string "only-multiline"]] }
  sites

end RuleScout.CommaDangle
