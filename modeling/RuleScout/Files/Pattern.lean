/-!
# File patterns

A pattern stands for texts: `?` for any character, `*` for any characters, slashes among them,
a list in brackets for one of its characters, and `**`, which takes up a whole part of a path,
for any parts.
-/

set_option autoImplicit false

namespace RuleScout

abbrev CharRanges := List (Char × Char)

inductive PatternToken where
  | char (c : Char)
  | anyChar
  | anyText
  | anyParts
  | oneOf (ranges : CharRanges)
  | noneOf (ranges : CharRanges)
  deriving DecidableEq, Repr

namespace PatternToken

def inRanges (ranges : CharRanges) (c : Char) : Bool :=
  ranges.any fun (first, last) => first ≤ c && c ≤ last

def accepts : PatternToken → Char → Bool
  | .char x, c => c = x
  | .anyChar, _ => true
  | .oneOf ranges, c => inRanges ranges c
  | .noneOf ranges, c => !inRanges ranges c
  | .anyText, _ | .anyParts, _ => false

def char? : PatternToken → Option Char
  | .char c => some c
  | _ => none

end PatternToken

inductive PatternFlaw where
  | tooManyStars
  | brokenPart
  | openBracket
  deriving DecidableEq, Repr

def PatternFlaw.message : PatternFlaw → String
  | .tooManyStars => "wildcards are either regular \x60*\x60 or recursive \x60**\x60"
  | .brokenPart => "recursive wildcards must form a single path component"
  | .openBracket => "invalid range pattern"

structure PatternFault where
  position : Nat
  flaw : PatternFlaw
  deriving DecidableEq, Repr

structure Pattern where
  tokens : List PatternToken
  deriving DecidableEq, Repr

namespace Pattern

def isSeparator (c : Char) : Bool := c = '/'

def rangesOf : List Char → CharRanges
  | a :: '-' :: b :: cs => (a, b) :: rangesOf cs
  | a :: cs => (a, a) :: rangesOf cs
  | [] => []

/-- The list behind an opening bracket and what is left of the text. The first character of
the list does not close it. -/
def bracketed? (cs : List Char) : Option (PatternToken × List Char) :=
  let closed (first : Char) (cs : List Char) : Option (List Char × List Char) :=
    match cs.span (· ≠ ']') with
    | (inside, _ :: rest) => some (first :: inside, rest)
    | (_, []) => none
  match cs with
  | '!' :: first :: cs => (closed first cs).map fun (list, rest) => (.noneOf (rangesOf list), rest)
  | ['!'] => none
  | first :: cs => (closed first cs).map fun (list, rest) => (.oneOf (rangesOf list), rest)
  | [] => none

/-- Adds a `**`. Behind another one it makes no difference, unless that stands first. -/
def addAnyParts (tokens : List PatternToken) : List PatternToken :=
  if 1 < tokens.length && tokens.getLast? = some .anyParts then tokens else tokens ++ [.anyParts]

/-- Compiles a pattern from the character at `position` on. `before` is the character in front
of it. -/
def compileFrom :
    Nat → Nat → Option Char → List PatternToken → List Char → Except PatternFault Pattern
  | 0, _, _, tokens, _ => .ok ⟨tokens⟩
  | fuel + 1, position, before, tokens, cs =>
    match cs with
    | [] => .ok ⟨tokens⟩
    | '?' :: cs => compileFrom fuel (position + 1) (some '?') (tokens ++ [.anyChar]) cs
    | '*' :: '*' :: '*' :: _ => .error ⟨position + 2, .tooManyStars⟩
    | '*' :: '*' :: rest =>
      if !before.all isSeparator then .error ⟨position - 1, .brokenPart⟩
      else
        match rest with
        | [] => .ok ⟨addAnyParts tokens⟩
        | c :: rest =>
          if isSeparator c then
            compileFrom fuel (position + 3) (some c) (addAnyParts tokens) rest
          else .error ⟨position + 2, .brokenPart⟩
    | '*' :: cs => compileFrom fuel (position + 1) (some '*') (tokens ++ [.anyText]) cs
    | '[' :: rest =>
      match bracketed? rest with
      | some (token, rest) =>
        compileFrom fuel (position + (cs.length - rest.length)) (some ']') (tokens ++ [token]) rest
      | none => .error ⟨position, .openBracket⟩
    | c :: cs => compileFrom fuel (position + 1) (some c) (tokens ++ [.char c]) cs

def compile (text : String) : Except PatternFault Pattern :=
  let cs := text.toList
  compileFrom (cs.length + 1) 0 none [] cs

def someSuffix (p : List Char → Bool) : List Char → Bool
  | [] => p []
  | c :: cs => p (c :: cs) || someSuffix p cs

/-- Whether a test holds for the text, or for what stands behind one of its separators. -/
def somePart (p : List Char → Bool) (cs : List Char) : Bool := p cs || afterSeparator cs
where
  afterSeparator : List Char → Bool
    | [] => false
    | c :: cs => (isSeparator c && p cs) || afterSeparator cs

/-- Whether tokens stand for a text. A `**` at the end stands for any text. -/
def matchTokens : List PatternToken → List Char → Bool
  | [], cs => cs.isEmpty
  | .anyText :: ts, cs => someSuffix (matchTokens ts) cs
  | [.anyParts], _ => true
  | .anyParts :: ts, cs => somePart (matchTokens ts) cs
  | _ :: _, [] => false
  | t :: ts, c :: cs => t.accepts c && matchTokens ts cs

def matches? (p : Pattern) (text : String) : Bool := matchTokens p.tokens text.toList

def literal? (p : Pattern) : Option String :=
  (p.tokens.mapM PatternToken.char?).map String.ofList

def isRecursive (p : Pattern) : Bool := p.tokens.contains .anyParts

end Pattern

end RuleScout
