import RuleScout.Value
import RuleScout.Number.Layout
import RuleScout.Yaml.Letter
import RuleScout.Yaml.Scalar

/-!
# Writing YAML

Block style throughout: two spaces for each level, items of a list level with the key they
belong to, and only empty containers in brackets. A text is written plainly if it reads back as
that text, otherwise in single quotes, in double quotes if it holds characters that need an
escape, and as a literal block if it has line feeds.
-/

set_option autoImplicit false

namespace RuleScout.Yaml

/-! ## The style of a text -/

/-- Whether the text would be taken for something else if it were written plainly. `before` is
the character before the rest. -/
def hasIndicator : Option Char → List Char → Bool
  | _, [] => false
  | before, c :: cs =>
    let spaceAfter := cs.head?.all isBlankOrBreak
    let here :=
      match before with
      | none => c ∈ leadingIndicators || ((c = '?' || c = ':' || c = '-') && spaceAfter)
      | some b => (c = ':' && spaceAfter) || (c = '#' && isBlankOrBreak b)
    here || hasIndicator (some c) cs

def adjacent (p q : Char → Bool) : List Char → Bool
  | a :: b :: cs => (p a && q b) || adjacent p q (b :: cs)
  | _ => false

inductive Style where
  | plain
  | single
  | double
  | literal
  deriving DecidableEq, Repr

def needsEscape (cs : List Char) : Bool :=
  !cs.all isPrintable || adjacent isSpace isBreak cs

def plainAllowed (cs : List Char) : Bool :=
  !(cs.head?.any isSpace || cs.getLast?.any isSpace || cs.any isBreak || needsEscape cs ||
    startsWithMark cs || hasIndicator none cs)

def singleAllowed (cs : List Char) : Bool :=
  !(adjacent isBreak isSpace cs || needsEscape cs)

def literalAllowed (cs : List Char) : Bool :=
  !(cs.isEmpty || cs.getLast?.any isSpace || needsEscape cs)

def readsAsText (s : String) : Bool := meaning s = .text && !hasLeadingZero s.toList

/-- A key must stay on one line. -/
def style (isKey : Bool) (s : String) : Style :=
  let cs := s.toList
  if cs.contains '\n' then if literalAllowed cs && !isKey then .literal else .double
  else if isKey && cs.any isBreak then .double
  else if readsAsText s && plainAllowed cs then .plain
  else if singleAllowed cs then .single
  else .double

/-! ## Texts -/

def hexDigit (n : Nat) : Char := "0123456789ABCDEF".toList[n]?.getD '0'

def hex : Nat → Nat → List Char
  | 0, _ => []
  | width + 1, n => hex width (n / 16) ++ [hexDigit (n % 16)]

def shortEscape? (n : Nat) : Option Char :=
  [(0x00, '0'), (0x07, 'a'), (0x08, 'b'), (0x09, 't'), (0x0A, 'n'), (0x0B, 'v'), (0x0C, 'f'),
    (0x0D, 'r'), (0x1B, 'e'), (0x22, '"'), (0x5C, '\\'), (0x85, 'N'), (0xA0, '_'),
    (0x2028, 'L'), (0x2029, 'P')].lookup n

def escape (c : Char) : List Char :=
  let n := c.toNat
  if isPrintable c && !isBreak c && c ≠ '"' && c ≠ '\\' then [c]
  else
    match shortEscape? n with
    | some e => ['\\', e]
    | none =>
      if n ≤ 0xFF then '\\' :: 'x' :: hex 2 n
      else if n ≤ 0xFFFF then '\\' :: 'u' :: hex 4 n
      else '\\' :: 'U' :: hex 8 n

def doubleQuoted (cs : List Char) : List Char := '"' :: cs.flatMap escape ++ ['"']

def pad (indent : Nat) : List Char := List.replicate indent ' '

def indented (indent : Nat) (atStart : Bool) (write : Char → List Char) : List Char → List Char
  | [] => []
  | c :: cs =>
    if isBreak c then c :: indented indent true write cs
    else (if atStart then pad indent else []) ++ write c ++ indented indent false write cs

/-- A text in single quotes. A quote is written twice, and also the closing one is indented if
it starts a line. -/
def singleQuoted (indent : Nat) (cs : List Char) : List Char :=
  '\'' :: indented indent false (fun c => if c = '\'' then ['\'', '\''] else [c]) cs ++
    (if cs.getLast?.any isBreak then pad indent else []) ++ ['\'']

/-- The head of a literal block: whether its indentation has to be said, and what becomes of
the line feeds at its end. -/
def literalHead (cs : List Char) : List Char :=
  let hint := if cs.head?.any fun c => isSpace c || isBreak c then ['2'] else []
  let chomp :=
    match cs.reverse with
    | [] => ['-']
    | [c] => if isBreak c then ['+'] else ['-']
    | c :: d :: _ => if !isBreak c then ['-'] else if isBreak d then ['+'] else []
  '|' :: hint ++ chomp

def text (isKey : Bool) (indent : Nat) (s : String) : List Char :=
  let cs := s.toList
  match style isKey s with
  | .plain => cs
  | .single => singleQuoted indent cs
  | .double => doubleQuoted cs
  | .literal => literalHead cs ++ '\n' :: indented indent true ([·]) cs

/-! ## Nodes -/

def endLine (cs : List Char) : List Char :=
  if cs.getLast?.any isBreak then cs else cs ++ ['\n']

def widestKey : Nat := 128

def isSimpleKey (key : String) : Bool :=
  key.utf8ByteSize ≤ widestKey && !key.toList.any isBreak

/-- What stands before a value on its line. A list or a mapping goes on behind a dash, and starts
a line of its own behind a key. -/
inductive Before where
  | dash
  | key
  deriving DecidableEq, Repr

def Before.opening : Before → List Char
  | .dash => [' ']
  | .key => ['\n']

mutual

/-- A value behind the dash or key that stands at `indent`, and the end of its last line. -/
def printNode (before : Before) (indent : Nat) : Value → List Char
  | .null => " null\n".toList
  | .bool b => (if b then " true\n" else " false\n").toList
  | .int n => ' ' :: (toString n).toList ++ ['\n']
  | .float x => ' ' :: x.scientific.toList ++ ['\n']
  | .string s => ' ' :: endLine (text false (indent + 2) s)
  | .array vs =>
    if vs.isEmpty then " []\n".toList
    else
      before.opening ++
        match before with
        | .dash => printItems (indent + 2) true vs
        | .key => printItems indent false vs
  | .object fs =>
    if fs.isEmpty then " \x7b\x7d\n".toList
    else before.opening ++ printFields (indent + 2) (before = .dash) fs

def printItems (indent : Nat) (inline : Bool) : List Value → List Char
  | [] => []
  | v :: vs =>
    (if inline then [] else pad indent) ++ '-' :: printNode .dash indent v ++
      printItems indent false vs

def printFields (indent : Nat) (inline : Bool) : List (String × Value) → List Char
  | [] => []
  | (k, v) :: fs =>
    (if inline then [] else pad indent) ++
      (if isSimpleKey k then text true (indent + 2) k ++ ':' :: printNode .key indent v
       else
        '?' :: ' ' :: endLine (text false (indent + 2) k) ++ pad indent ++ ':' ::
          printNode .dash indent v) ++
      printFields indent false fs

end

def print (fs : List (String × Value)) : String :=
  if fs.isEmpty then "\x7b\x7d\n" else String.ofList (printFields 0 false fs)

end RuleScout.Yaml
