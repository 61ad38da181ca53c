import RuleScout.Config.NameMap
import RuleScout.Config.Setting

/-!
# Configurations

What a linter run is given, and what discovery produces: a setting for each rule, and the
things around it.
-/

set_option autoImplicit false

namespace RuleScout

structure FileSelection where
  included : Option (List String) := none
  excluded : Option (List String) := none
  extensions : Option (List String) := none
  deriving DecidableEq, Repr

namespace FileSelection

def excludePatterns (f : FileSelection) : List String :=
  f.excluded.getD ["**/node_modules/**"]

def extensionList (f : FileSelection) : List String := f.extensions.getD ["js", "mjs", "cjs"]

end FileSelection

/-- `parent` names the configuration that this one builds on. `dialect` is passed on to the
parser of the source language and never looked into. -/
structure Config where
  parent : Option String := none
  plugins : List String := []
  env : NameMap Bool := .empty
  dialect : Option Value := none
  files : Option FileSelection := none
  rules : NameMap Setting := .empty
  deriving DecidableEq

namespace Config

def rule? (c : Config) (id : String) : Option Setting := c.rules.get? id

def withRules (c : Config) (rules : NameMap Setting) : Config := { c with rules }

def enabledCount (c : Config) : Nat := c.rules.entries.countP fun (_, s) => s.isEnabled

def fileSelection (c : Config) : FileSelection := c.files.getD {}

end Config

end RuleScout
