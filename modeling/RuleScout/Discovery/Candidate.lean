import RuleScout.Rule.Catalog
import RuleScout.Config.Setting

/-!
# Candidates

For every rule a short list of settings is tried. They come from the rule's schema: the bare
severity first, then tuples of listed values, position by position. A position whose values
cannot be listed ends the walk. The order matters, because the first of several equally good
candidates is taken.
-/

set_option autoImplicit false

namespace RuleScout

inductive Tier where
  | severityOnly
  | singleOption
  | multiOption
  deriving DecidableEq, Repr

namespace Tier

def ofCount : Nat → Tier
  | 0 => .severityOnly
  | 1 => .singleOption
  | _ => .multiOption

def number : Tier → Nat
  | .severityOnly => 1
  | .singleOption => 2
  | .multiOption => 3

def name : Tier → String
  | .severityOnly => "SeverityOnly"
  | .singleOption => "SingleOption"
  | .multiOption => "MultiOption"

def describe (t : Tier) : String := "tier " ++ toString t.number

end Tier

structure Candidate where
  rule : String
  options : List Value
  deriving DecidableEq, Repr

namespace Candidate

def tier (c : Candidate) : Tier := .ofCount c.options.length

def setting (c : Candidate) : Setting := ⟨.error, c.options⟩

def describe (c : Candidate) : String := c.rule ++ ": " ++ c.setting.describe

def encode (c : Candidate) : Value :=
  .object [("rule_id", .string c.rule), ("options", .array c.options),
    ("tier", .string c.tier.name)]

end Candidate

/-! ## Values to try -/

def extendObjects (objects : List (List (String × Value))) (name : String)
    (values : List Value) : List (List (String × Value)) :=
  objects.flatMap fun fields => values.map (Value.putField fields name)

def listedProperties (properties : List PropertySchema) : List (String × List Value) :=
  properties.filterMap fun p => p.candidateValues.map (p.name, ·)

/-- One object for each combination of the listed properties, the earlier ones varying
slowest; nothing if no property can be listed. -/
def objectValues (properties : List PropertySchema) : Option (List Value) :=
  match listedProperties properties with
  | [] => none
  | listed =>
    some ((listed.foldl (fun objects (name, values) => extendObjects objects name values)
      [[]]).map .object)

def OptionSchema.values? : OptionSchema → Option (List Value)
  | .enumeration [] => none
  | .enumeration values => some values
  | .object properties => objectValues properties
  | .anything _ => none

/-- The tuples, and behind them each of them extended by each value. The first position starts
the tuples. -/
def extendTuples (tuples : List (List Value)) (values : List Value) : List (List Value) :=
  if tuples.isEmpty then values.map ([·])
  else tuples ++ tuples.flatMap fun t => values.map fun v => t ++ [v]

def optionTuples (tuples : List (List Value)) : List OptionSchema → List (List Value)
  | [] => tuples
  | s :: rest =>
    match s.values? with
    | none => tuples
    | some values => optionTuples (extendTuples tuples values) rest

/-! ## The registry -/

structure RuleEntry where
  rule : String
  recommended : Bool
  candidates : List Candidate
  deriving DecidableEq, Repr

namespace RuleEntry

def ofMetadata (m : RuleMetadata) : RuleEntry where
  rule := m.id
  recommended := m.recommended
  candidates := ([] :: optionTuples [] m.schema).map (⟨m.id, ·⟩)

end RuleEntry

structure Registry where
  entries : List RuleEntry
  deriving DecidableEq, Repr

namespace Registry

def ofCatalog (c : Catalog) : Registry := ⟨c.rules.map fun r => .ofMetadata r.metadata⟩

def ids (r : Registry) : List String := r.entries.map (·.rule)

def entry? (r : Registry) (id : String) : Option RuleEntry := r.entries.find? (·.rule = id)

def candidates (r : Registry) : List Candidate := r.entries.flatMap (·.candidates)

def candidateCount (r : Registry) : Nat := r.candidates.length

end Registry

end RuleScout
