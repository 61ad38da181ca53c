import RuleScout.Discovery.Survivors

/-!
# From survivors to settings

Of several survivors the first with exactly one option is taken, or else the first with more,
or else the bare severity. A rule without survivors stays on if it is recommended and is
turned off otherwise. The settings are put together in layers, the firmer decisions last.
-/

set_option autoImplicit false

namespace RuleScout

inductive Decision where
  | unambiguous
  | singleOption
  | multiOption
  | default
  | forcedError
  | disabled
  deriving DecidableEq, Repr

namespace Decision

def slug : Decision → String
  | .unambiguous => "unambiguous"
  | .singleOption => "single-option"
  | .multiOption => "multi-option"
  | .default => "default"
  | .forcedError => "forced-error"
  | .disabled => "disabled"

def describe : Decision → String
  | .unambiguous => "only clean candidate"
  | .singleOption => "first clean single-option candidate"
  | .multiOption => "first clean multi-option candidate"
  | .default => "clean default"
  | .forcedError => "no clean candidate, kept as recommended"
  | .disabled => "no clean candidate, disabled"

/-- The layer in which a decision is put into the result. -/
def layer : Decision → Nat
  | .forcedError | .disabled => 0
  | .default => 1
  | .multiOption => 2
  | .singleOption => 3
  | .unambiguous => 4

end Decision

/-- `survivors` and `candidates` count the clean and the tried ones. -/
structure RuleDecision where
  rule : String
  setting : Setting
  decision : Decision
  survivors : Nat
  candidates : Nat
  deriving DecidableEq, Repr

namespace RuleDecision

def describe (d : RuleDecision) : String :=
  s!"{d.rule}: {d.setting.describe} ({d.decision.describe}, {d.survivors}/{d.candidates} clean)"

def encode (d : RuleDecision) : Value :=
  .object [("rule_id", .string d.rule), ("setting", d.setting.encode),
    ("decision", .string d.decision.slug), ("survivors", .int d.survivors),
    ("candidates", .int d.candidates)]

end RuleDecision

def select (survivors : List Candidate) : Option (Candidate × Decision) :=
  match survivors with
  | [only] => some (only, .unambiguous)
  | several =>
    let first (t : Tier) (d : Decision) : Option (Candidate × Decision) :=
      (several.find? (·.tier = t)).map (·, d)
    first .singleOption .singleOption <|> first .multiOption .multiOption <|>
      first .severityOnly .default

def fallback (recommended : Bool) : Setting × Decision :=
  if recommended then (.error, .forcedError) else (.off, .disabled)

def choose (survivors : List Candidate) (recommended : Bool) : Setting × Decision :=
  match select survivors with
  | some (c, d) => (c.setting, d)
  | none => fallback recommended

structure Resolution where
  rules : NameMap Setting
  decisions : List RuleDecision
  deriving DecidableEq

namespace Resolution

def decisionFor (passing : NameMap (List Candidate)) (e : RuleEntry) : RuleDecision :=
  let survivors := (passing.get? e.rule).getD []
  let (setting, decision) := choose survivors e.recommended
  ⟨e.rule, setting, decision, survivors.length, e.candidates.length⟩

def mergeLayer (decisions : List RuleDecision) (rules : NameMap Setting) (layer : Nat) :
    NameMap Setting :=
  (decisions.filter (·.decision.layer = layer)).foldl (fun m d => m.insert d.rule d.setting) rules

def merge (decisions : List RuleDecision) : NameMap Setting :=
  (List.range (Decision.layer .unambiguous + 1)).foldl (mergeLayer decisions) .empty

def ofPartition (p : Partition) (registry : Registry) : Resolution :=
  let decisions := registry.entries.map (decisionFor (.ofList p.passing))
  ⟨merge decisions, decisions⟩

end Resolution

end RuleScout
