/-!
# Looking for a piece of text
-/

set_option autoImplicit false

namespace RuleScout.Text

def occursIn (needle : List Char) : List Char → Bool
  | [] => needle.isEmpty
  | c :: cs => needle.isPrefixOf (c :: cs) || occursIn needle cs

end RuleScout.Text
