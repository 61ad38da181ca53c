import RuleScout.Discovery.Resolution

/-!
# Discovery

The whole way from a corpus to a configuration: try the candidates of every rule, keep the
clean ones, choose one setting for each rule, and put the settings in place of the rules of a
base configuration.
-/

set_option autoImplicit false

namespace RuleScout

structure Outcome where
  config : Config
  decisions : List RuleDecision
  files : Nat
  deriving DecidableEq

namespace Outcome

def summary (o : Outcome) : String :=
  s!"Enabled {o.config.enabledCount} out of {o.decisions.length} rules based on {o.files} file" ++
    (if o.files = 1 then "." else "s.")

def ofSurvivors (registry : Registry) (base : Config) (corpus : Corpus)
    (survivors : Survivors) : Outcome :=
  let resolution := Resolution.ofPartition (.ofSurvivors survivors registry) registry
  { config := base.withRules resolution.rules
    decisions := resolution.decisions
    files := corpus.size }

def ofResults (registry : Registry) (base : Config) (corpus : Corpus)
    (results : List TrialResult) : Outcome :=
  ofSurvivors registry base corpus (.ofResults registry results)

def discover (catalog : Catalog) (corpus : Corpus) (base : Config)
    (cancellation : Cancellation) (earlier : Nat) : Run Outcome :=
  let registry := Registry.ofCatalog catalog
  (Trial.survivors catalog registry corpus base cancellation earlier).map
    (ofSurvivors registry base corpus)

end Outcome

def loadingWeight : Float := 0.2

def trialsWeight : Float := 0.8

def recommendedName : String := "lintseed:recommended"

/-- Builds a configuration on the recommended one: rules that it sets in the same way are left
out. -/
def extendFromRecommended (c : Config) (catalog : Catalog) : Config :=
  let recommended := catalog.recommendedConfig.rules
  { c with
    parent := some recommendedName
    rules := c.rules.filter fun id s => !(recommended.contains id && s = .error) }

end RuleScout
