import RuleScout.Rule.Catalog
import RuleScout.Rule.Builtin.Semi
import RuleScout.Rule.Builtin.Quotes
import RuleScout.Rule.Builtin.Indent
import RuleScout.Rule.Builtin.UnusedNames
import RuleScout.Rule.Builtin.Equality
import RuleScout.Rule.Builtin.Layout
import RuleScout.Rule.Builtin.CommaDangle
import RuleScout.Rule.Builtin.Forbidden
import RuleScout.Rule.Builtin.Empty

/-!
# The built-in rules

The order of the catalog is the order in which rules are configured and reported.
-/

set_option autoImplicit false

namespace RuleScout.Catalog

def builtin : Catalog := .ofRules
  [Semi.rule, Quotes.rule, Indent.rule, UnusedNames.rule, Equality.rule,
    Layout.noTrailingSpaces, Layout.eolLast, CommaDangle.rule, Forbidden.noVar,
    Forbidden.noConsole, Forbidden.noDebugger, Layout.linebreakStyle, Empty.noEmpty]

theorem rules_builtin :
    builtin.rules = [Semi.rule, Quotes.rule, Indent.rule, UnusedNames.rule, Equality.rule,
      Layout.noTrailingSpaces, Layout.eolLast, CommaDangle.rule, Forbidden.noVar,
      Forbidden.noConsole, Forbidden.noDebugger, Layout.linebreakStyle, Empty.noEmpty] :=
  rules_ofRules (by decide)

end RuleScout.Catalog
