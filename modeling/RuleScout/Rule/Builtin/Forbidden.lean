import RuleScout.Rule.Basic

/-!
# Forbidden words

Three rules that object to a word of the code: `var`, `debugger` and calls on `console`.
-/

set_option autoImplicit false

namespace RuleScout.Forbidden

def keywordSites (word message : String) (c : Code) (_ : Options) : List Site :=
  (c.positions.filter (c.isKeyword · word)).map (.start · message)

def noVar : Rule := .onCode
  { id := "no-var"
    name := "No Var"
    description := "Require let or const instead of var"
    category := .style }
  (keywordSites "var" "Unexpected var, use let or const instead.")

def noDebugger : Rule := .onCode
  { id := "no-debugger"
    name := "No Debugger"
    description := "Disallow the use of debugger"
    category := .correctness
    recommended := true }
  (keywordSites "debugger" "Unexpected 'debugger' statement.")

def isMemberDot (l : Lexeme) : Bool := l.isPunct "." || l.isPunct "?."

def allowedMethods (options : Options) : List String :=
  match options.property? 0 "allow" with
  | some (.array items) => items.filterMap Value.string?
  | _ => []

/-- A member of the global `console` whose name is not among the allowed ones. -/
def isConsoleAccess (c : Code) (allowed : List String) (p : Nat) : Bool :=
  (c.at? p).any (fun l => l.kind = .identifier && l.text = "console") &&
    !(c.before? p).any isMemberDot && c.isPunct (p + 1) "." &&
    (c.at? (p + 2)).any (fun l => l.text ∉ allowed)

def noConsole : Rule := .onCode
  { id := "no-console"
    name := "No Console"
    description := "Disallow the use of console"
    category := .suspicious
    schema := [.object [⟨"allow", .anything⟩]] }
  fun c options =>
    (c.positions.filter (isConsoleAccess c (allowedMethods options))).map
      (.start · "Unexpected console statement.")

end RuleScout.Forbidden
