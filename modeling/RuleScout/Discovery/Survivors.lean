import RuleScout.Discovery.Trial

/-!
# Survivors

The clean candidates of each rule, in the order of the trials. Every rule of the registry has
a place, also one without survivors; rules that only the results know come behind them.
-/

set_option autoImplicit false

namespace RuleScout

structure Survivors where
  byRule : List (String × List Candidate)
  deriving DecidableEq, Repr

namespace Survivors

def empty : Survivors := ⟨[]⟩

def addTo (c : Candidate) : List (String × List Candidate) → List (String × List Candidate)
  | [] => [(c.rule, [c])]
  | (id, cs) :: rest =>
    if id = c.rule then (id, cs ++ [c]) :: rest else (id, cs) :: addTo c rest

def add (s : Survivors) (c : Candidate) : Survivors := ⟨addTo c s.byRule⟩

def ofResults (registry : Registry) (results : List TrialResult) : Survivors :=
  ((results.filter (·.clean)).map (·.candidate)).foldl add ⟨registry.ids.map (·, [])⟩

def get (s : Survivors) (id : String) : List Candidate := (s.byRule.lookup id).getD []

def contains (s : Survivors) (id : String) : Bool := s.byRule.any (·.1 = id)

def size (s : Survivors) : Nat := s.byRule.length

def isEmpty (s : Survivors) : Bool := s.byRule.isEmpty

def failing (s : Survivors) (registry : Registry) : NameMap Unit :=
  .ofList ((registry.ids.filter fun id => (s.get id).isEmpty).map (·, ()))

end Survivors

def Trial.survivors (catalog : Catalog) (registry : Registry) (corpus : Corpus) (base : Config)
    (cancellation : Cancellation) (earlier : Nat) : Run Survivors :=
  (Trial.run catalog registry corpus base cancellation earlier).map (.ofResults registry)

/-- The rules of a registry, divided by whether a candidate survived. -/
structure Partition where
  failing : NameMap Unit
  passing : List (String × List Candidate)
  deriving DecidableEq

namespace Partition

def ofSurvivors (s : Survivors) (registry : Registry) : Partition :=
  let failing := s.failing registry
  { failing
    passing := (registry.ids.filter fun id => !failing.contains id).map fun id => (id, s.get id) }

end Partition

end RuleScout
