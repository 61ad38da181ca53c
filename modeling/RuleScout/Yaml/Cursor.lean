import RuleScout.Yaml.Letter

/-!
# Places in a YAML text

In YAML the column of a token says what it belongs to, and whether a token may be the key of a
mapping depends on what stands before it on its line. A cursor knows both.
-/

set_option autoImplicit false

namespace RuleScout.Yaml

/-- What is left of a text, from where on. Lines and columns are counted from zero.
`keyAllowed` says whether the next token may be a key, a dash or a question mark that starts
an entry of a block. -/
structure Cursor where
  rest : List Char
  line : Nat
  column : Nat
  keyAllowed : Bool
  deriving DecidableEq, Repr

namespace Cursor

/-- The start of a text. A byte order mark is passed over, and takes a column. -/
def ofText (cs : List Char) : Cursor :=
  match cs with
  | '\uFEFF' :: cs => ⟨cs, 0, 1, true⟩
  | cs => ⟨cs, 0, 0, true⟩

def char? (c : Cursor) : Option Char := c.rest.head?

def isAt (c : Cursor) (x : Char) : Bool := c.char? = some x

def atEnd (c : Cursor) : Bool := c.rest.isEmpty

def next (c : Cursor) : Cursor := { c with rest := c.rest.tail, column := c.column + 1 }

def forward (n : Nat) (c : Cursor) : Cursor :=
  { c with rest := c.rest.drop n, column := c.column + n }

def nextLine (c : Cursor) : Cursor :=
  match c.rest with
  | '\r' :: '\n' :: cs => { c with rest := cs, line := c.line + 1, column := 0 }
  | _ :: cs => { c with rest := cs, line := c.line + 1, column := 0 }
  | [] => c

def allowKey (c : Cursor) (allowed : Bool) : Cursor := { c with keyAllowed := allowed }

def isBlankAt (c : Cursor) (n : Nat) : Bool := (c.rest[n]?).all isBlankOrBreak

/-- An indicator counts in a block only in front of a blank. -/
def isIndicator (c : Cursor) (x : Char) : Bool := c.isAt x && c.isBlankAt 1

def atMark (c : Cursor) : Bool := c.column = 0 && startsWithMark c.rest && c.isBlankAt 3

def isOver (c : Cursor) : Bool := c.atEnd || c.atMark

/-- Passes over blanks, comments and breaks. Between brackets a break does not allow a key, and
tabs are blanks everywhere; in a block, tabs are none where a key may stand. -/
def skipFrom (flow : Bool) (line column : Nat) (keyAllowed inComment : Bool) :
    List Char → Cursor
  | [] => ⟨[], line, column, keyAllowed⟩
  | '\r' :: '\n' :: cs => skipFrom flow (line + 1) 0 (keyAllowed || !flow) false cs
  | c :: cs =>
    if isBreak c then skipFrom flow (line + 1) 0 (keyAllowed || !flow) false cs
    else if inComment || isSpace c || (c = '\t' && (flow || !keyAllowed)) then
      skipFrom flow line (column + 1) keyAllowed inComment cs
    else if c = '#' then skipFrom flow line (column + 1) keyAllowed true cs
    else ⟨c :: cs, line, column, keyAllowed⟩

def skip (flow : Bool) (c : Cursor) : Cursor :=
  skipFrom flow c.line c.column c.keyAllowed false c.rest

def take (p : Char → Bool) (c : Cursor) : List Char × Cursor :=
  let word := c.rest.takeWhile p
  (word, c.forward word.length)

end Cursor

end RuleScout.Yaml
