import RuleScout.Text.Blank

/-!
# Words

A list of patterns on one line is separated by blanks of any kind.
-/

set_option autoImplicit false

namespace RuleScout.Text

/-- The words of a text; `word` is the reverse of the one that is being read. -/
def wordsFrom (word : List Char) : List Char → List (List Char)
  | [] => if word.isEmpty then [] else [word.reverse]
  | c :: cs =>
    if isBlank c then
      if word.isEmpty then wordsFrom [] cs else word.reverse :: wordsFrom [] cs
    else wordsFrom (c :: word) cs

def splitWords (text : String) : List String := (wordsFrom [] text.toList).map String.ofList

end RuleScout.Text
