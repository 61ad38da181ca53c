/-!
# String and regular expression literals

The scanners answer how many characters a literal takes after its first one. A literal ends
on the line it began on, unless the line break is escaped.
-/

set_option autoImplicit false

namespace RuleScout.Literal

def runLength (p : Char → Bool) (cs : List Char) : Nat := (cs.takeWhile p).length

def scanString (quote : Char) : List Char → Option Nat
  | [] => none
  | '\\' :: _ :: cs => (scanString quote cs).map (· + 2)
  | c :: cs =>
    if c = '\n' || c = '\r' then none
    else if c = quote then some 1
    else (scanString quote cs).map (· + 1)

/-- The characters after an opening slash, up to and including the closing one. A slash inside
a character class does not close. -/
def scanRegexBody (inClass : Bool) : List Char → Option Nat
  | [] => none
  | '\\' :: _ :: cs => (scanRegexBody inClass cs).map (· + 2)
  | '[' :: cs => (scanRegexBody true cs).map (· + 1)
  | ']' :: cs => (scanRegexBody false cs).map (· + 1)
  | c :: cs =>
    if c = '\n' || c = '\r' then none
    else if c = '/' && !inClass then some 1
    else (scanRegexBody inClass cs).map (· + 1)

def isFlag (c : Char) : Bool := c.isAlpha

def scanRegex (cs : List Char) : Option Nat :=
  (scanRegexBody false cs).map fun n => n + runLength isFlag (cs.drop n)

def scanBlockComment : List Char → Option Nat
  | [] => none
  | '*' :: '/' :: _ => some 2
  | _ :: cs => (scanBlockComment cs).map (· + 1)

end RuleScout.Literal
