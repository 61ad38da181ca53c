import RuleScout.Config.Basic

/-!
# Building one configuration on another

What a configuration says itself takes precedence; what only its parent says is taken over.
The name of the parent belongs to the one file and is never taken over.
-/

set_option autoImplicit false

namespace RuleScout

def FileSelection.merge (f parent : FileSelection) : FileSelection where
  included := f.included <|> parent.included
  excluded := f.excluded <|> parent.excluded
  extensions := f.extensions <|> parent.extensions

namespace Config

/-- Appends the plugins that the list does not have yet, each once. -/
def addPlugins (plugins : List String) : List String → List String
  | [] => plugins
  | p :: ps => addPlugins (if p ∈ plugins then plugins else plugins ++ [p]) ps

def mergeFiles : Option FileSelection → Option FileSelection → Option FileSelection
  | some f, some parent => some (f.merge parent)
  | some f, none => some f
  | none, parent => parent

def merge (c parent : Config) : Config where
  parent := c.parent
  plugins := addPlugins c.plugins parent.plugins
  env := c.env.orElse parent.env
  dialect := c.dialect <|> parent.dialect
  files := mergeFiles c.files parent.files
  rules := c.rules.orElse parent.rules

end Config

end RuleScout
