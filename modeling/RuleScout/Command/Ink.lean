/-!
# Coloured text

Text is coloured by escape sequences around it, or left as it is.
-/

set_option autoImplicit false

namespace RuleScout

inductive Style where
  | bold
  | dimmed
  | underlined
  | red
  | green
  | yellow
  deriving DecidableEq, Repr

def Style.code : Style → Nat
  | .bold => 1
  | .dimmed => 2
  | .underlined => 4
  | .red => 31
  | .green => 32
  | .yellow => 33

structure Ink where
  coloured : Bool
  deriving DecidableEq, Repr

namespace Ink

def escape (code : Nat) : String := s!"\x1b[{code}m"

def reset : String := escape 0

/-- A text in a style. Where the text itself ends all styles, the style is begun again. -/
def paint (ink : Ink) (style : Style) (text : String) : String :=
  if ink.coloured then
    let start := escape style.code
    start ++ (reset ++ start).intercalate (text.splitOn reset) ++ reset
  else text

end Ink

end RuleScout
