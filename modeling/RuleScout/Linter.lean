import RuleScout.Rule.Catalog
import RuleScout.Config.Basic

/-!
# Running a configuration against a source unit

Every configured rule that is known and not off is asked for its violations, and these are
reported as findings in the order of their places. Rules are asked one by one, so what one
rule reports does not depend on the others. If one of them has no answer there are no findings
at all.
-/

set_option autoImplicit false

namespace RuleScout

structure Finding where
  rule : String
  severity : Severity
  message : String
  path : String
  line : Nat
  column : Nat
  deriving DecidableEq, Repr

namespace Finding

def isError (f : Finding) : Bool := f.severity = .error

def le (a b : Finding) : Bool :=
  a.line < b.line || (a.line = b.line &&
    (a.column < b.column || (a.column = b.column && (a.rule < b.rule || a.rule = b.rule))))

def encode (f : Finding) : Value :=
  .object [("rule_id", .string f.rule), ("severity", f.severity.encode),
    ("message", .string f.message), ("path", .string f.path), ("line", .int f.line),
    ("column", .int f.column)]

end Finding

namespace Linter

def finding (u : SourceUnit) (id : String) (s : Setting) (v : Violation) : Finding where
  rule := id
  severity := s.severity
  message := v.message
  path := u.path
  line := v.line
  column := v.column

def verifyRule (catalog : Catalog) (u : SourceUnit) (id : String) (s : Setting) :
    List Finding :=
  if s.isEnabled then
    match catalog.get? id with
    | some r => (r.check u ⟨s.options⟩).map (finding u id s)
    | none => []
  else []

def verify (catalog : Catalog) (u : SourceUnit) (c : Config) : List Finding :=
  (c.rules.entries.flatMap fun (id, s) => verifyRule catalog u id s).mergeSort Finding.le

/-- The number that keeps one rule from its answer. -/
def ruleOverflow? (catalog : Catalog) (u : SourceUnit) (id : String) (s : Setting) :
    Option Word.Overflow :=
  if s.isEnabled then (catalog.get? id).bind fun r => r.overflow? u ⟨s.options⟩ else none

def overflow? (catalog : Catalog) (u : SourceUnit) (c : Config) : Option Word.Overflow :=
  c.rules.entries.findSome? fun (id, s) => ruleOverflow? catalog u id s

def run (catalog : Catalog) (u : SourceUnit) (c : Config) : Except Word.Overflow (List Finding) :=
  match overflow? catalog u c with
  | some e => .error e
  | none => .ok (verify catalog u c)

end Linter

def Catalog.recommendedConfig (c : Catalog) : Config :=
  ({} : Config).withRules (.ofList (c.recommendedIds.map (·, Setting.error)))

end RuleScout
