import RuleScout.Text.Blank
import RuleScout.Source.Token

/-!
# Lines

Lines are what line feeds separate; a carriage return at the end of one belongs to its
terminator. `layOut` deals the tokens out to the lines they start on, and so finds for every
line its first token, the brackets around that token, and whether the line lies inside a token
that started further up.
-/

set_option autoImplicit false

namespace RuleScout

open Text

/-- `firstToken` is the first token on the line that is no layout, and `openBrackets` holds
the brackets around it, outermost first. A `continued` line starts inside a token. -/
structure Line where
  number : Nat
  text : String
  firstToken : Option Nat
  continued : Bool
  openBrackets : List Nat
  deriving DecidableEq, Repr

namespace Line

def chars (l : Line) : List Char := l.text.toList

def isIndent (c : Char) : Bool := c = ' ' || c = '\t'

def indentation (l : Line) : List Char := l.chars.takeWhile isIndent

def isBlank (l : Line) : Bool := l.chars.all Text.isBlank

def depth (l : Line) : Nat := l.openBrackets.length

def split : List Char → List (List Char)
  | [] => [[]]
  | c :: cs =>
    if c = '\n' then [] :: split cs
    else
      match split cs with
      | [] => [[c]]
      | l :: ls => (c :: l) :: ls

def dropReturn (l : List Char) : List Char :=
  if l.getLast? = some '\r' then l.dropLast else l

/-- The texts of the lines. A line feed at the very end starts no further line. -/
def texts (cs : List Char) : List (List Char) :=
  let parts := split cs
  (if cs.getLast? = some '\n' then parts.dropLast else parts).map dropReturn

/-- The last line that a token other than a line break reaches, if it is beyond `covered`. -/
def reach (covered : Nat) (t : Token) : Nat :=
  if t.kind = .newline then covered else max covered t.endLine

/-- The lines from number `k` on. `ts` are the tokens that start on them, with their indices,
and the tokens before them reach up to the line `covered`. -/
def layOut (enclosing : Nat → List Nat) (k covered : Nat) (ts : List (Token × Nat)) :
    List (List Char) → List Line
  | [] => []
  | text :: rest =>
    let here := ts.takeWhile fun (t, _) => t.line ≤ k
    let continued : Bool := k ≤ covered
    let first := if continued then none else here.find? fun (t, _) => t.kind ≠ .whitespace
    { number := k
      text := String.ofList text
      firstToken := (first.filter fun (t, _) => t.kind ≠ .newline).map (·.2)
      continued
      openBrackets := (first.map fun (_, i) => (enclosing i).reverse).getD [] } ::
      layOut enclosing (k + 1) (here.foldl (fun m (t, _) => reach m t) covered)
        (ts.drop here.length) rest

end Line

end RuleScout
