import RuleScout.Yaml.Cursor
import RuleScout.Number.Reading

/-!
# The text of a YAML scalar

Plain and quoted scalars may go on over several lines. A single break between two pieces reads
as a space, and of several breaks the first is dropped. In a block scalar the breaks are kept,
or folded in the same way if the lines around them are not indented further.

Every scanner takes its fuel from the length of the text.
-/

set_option autoImplicit false

namespace RuleScout.Yaml

def lineFeed (c : Char) : Char := if c.toNat = 0x2028 || c.toNat = 0x2029 then c else '\n'

/-- What stands between two pieces of a scalar. `first` is the first break, unless it was
escaped. -/
structure Gap where
  blanks : List Char := []
  first : Option Char := none
  more : List Char := []
  crossed : Bool := false
  deriving DecidableEq, Repr

namespace Gap

def blank (g : Gap) (c : Char) : Gap :=
  if g.crossed then g else { g with blanks := g.blanks ++ [c] }

def cross (g : Gap) (c : Char) : Gap :=
  if g.crossed then { g with more := g.more ++ [c] } else ⟨[], some c, [], true⟩

def text (g : Gap) : List Char :=
  if !g.crossed then g.blanks
  else if g.first = some '\n' then if g.more.isEmpty then [' '] else g.more
  else g.first.toList ++ g.more

/-- Reads a gap. Tabs must not stand before the column `floor` of a new line. -/
def scan (floor : Nat) : Nat → Gap → Cursor → Option (Gap × Cursor)
  | 0, _, _ => none
  | fuel + 1, g, c =>
    match c.rest with
    | [] => some (g, c)
    | x :: _ =>
      if isBreak x then scan floor fuel (g.cross (lineFeed x)) c.nextLine
      else if isBlank x then
        if x = '\t' && g.crossed && c.column < floor then none
        else scan floor fuel (g.blank x) c.next
      else some (g, c)

end Gap

/-! ## Plain scalars -/

def startsPlain (flow : Bool) (c : Cursor) : Bool :=
  match c.char? with
  | none => false
  | some x =>
    if x = '-' then !c.isBlankAt 1
    else if x = '?' || x = ':' then !flow && !c.isBlankAt 1
    else !isBlankOrBreak x && x ∉ leadingIndicators

def plainPiece (flow : Bool) : Nat → List Char → Cursor → Option (List Char × Cursor)
  | 0, _, _ => none
  | fuel + 1, acc, c =>
    match c.rest with
    | [] => some (acc, c)
    | x :: xs =>
      if isBlankOrBreak x then some (acc, c)
      else if flow && x = ':' && xs.head?.any (fun y => y = '?' || y ∈ flowIndicators) then none
      else if c.isIndicator ':' || (flow && x ∈ flowIndicators) then some (acc, c)
      else plainPiece flow fuel (x :: acc) c.next

/-- The pieces of a plain scalar, in reverse. Its lines must reach the column `floor`. A key
may follow it if it is followed by a break. -/
def plainPieces (flow : Bool) (floor : Nat) :
    Nat → List Char → Gap → Cursor → Option (List Char × Cursor)
  | 0, _, _, _ => none
  | fuel + 1, acc, gap, c =>
    if c.atMark || c.isAt '#' then some (acc, c.allowKey gap.crossed)
    else
      match plainPiece flow fuel [] c with
      | none => none
      | some ([], d) => some (acc, d.allowKey gap.crossed)
      | some (piece, d) =>
        let acc := piece ++ gap.text.reverse ++ acc
        if d.char?.any isBlankOrBreak then
          match Gap.scan floor fuel {} d with
          | none => none
          | some (gap, e) =>
            if !flow && e.column < floor then some (acc, e.allowKey gap.crossed)
            else plainPieces flow floor fuel acc gap e
        else some (acc, d.allowKey false)

def plain (flow : Bool) (floor fuel : Nat) (c : Cursor) : Option (String × Cursor) :=
  (plainPieces flow floor fuel [] {} c).map fun (cs, c) => (String.ofList cs.reverse, c)

/-! ## Quoted scalars -/

/-- A scalar in single quotes from behind the first of them; a quote is written twice. -/
def single : Nat → List Char → Cursor → Option (String × Cursor)
  | 0, _, _ => none
  | fuel + 1, acc, c =>
    if c.atMark then none
    else
      match c.rest with
      | [] => none
      | '\'' :: '\'' :: _ => single fuel ('\'' :: acc) (c.forward 2)
      | '\'' :: _ => some (String.ofList acc.reverse, c.next.allowKey false)
      | x :: _ =>
        if isBlankOrBreak x then
          match Gap.scan 0 fuel {} c with
          | none => none
          | some (gap, d) => single fuel (gap.text.reverse ++ acc) d
        else single fuel (x :: acc) c.next

def simpleEscape? (c : Char) : Option Char :=
  [('0', 0x00), ('a', 0x07), ('b', 0x08), ('t', 0x09), ('\t', 0x09), ('n', 0x0A), ('v', 0x0B),
    ('f', 0x0C), ('r', 0x0D), ('e', 0x1B), (' ', 0x20), ('"', 0x22), ('/', 0x2F), ('\\', 0x5C),
    ('N', 0x85), ('_', 0xA0), ('L', 0x2028), ('P', 0x2029)].lookup c |>.map Char.ofNat

def escapeWidth? (c : Char) : Option Nat := [('x', 2), ('u', 4), ('U', 8)].lookup c

def hexChar? (width : Nat) (cs : List Char) : Option Char :=
  if cs.length < width then none
  else
    (Number.natOf? 16 (cs.take width)).bind fun n =>
      if n.isValidChar then some (Char.ofNat n) else none

def double : Nat → List Char → Cursor → Option (String × Cursor)
  | 0, _, _ => none
  | fuel + 1, acc, c =>
    if c.atMark then none
    else
      match c.rest with
      | [] => none
      | ['\\'] => none
      | '"' :: _ => some (String.ofList acc.reverse, c.next.allowKey false)
      | '\\' :: x :: xs =>
        if isBreak x then
          match Gap.scan 0 fuel ⟨[], none, [], true⟩ c.next.nextLine with
          | none => none
          | some (gap, d) => double fuel (gap.text.reverse ++ acc) d
        else
          match simpleEscape? x, escapeWidth? x with
          | some y, _ => double fuel (y :: acc) (c.forward 2)
          | none, some width =>
            match hexChar? width xs with
            | some y => double fuel (y :: acc) (c.forward (2 + width))
            | none => none
          | none, none => none
      | x :: _ =>
        if isBlankOrBreak x then
          match Gap.scan 0 fuel {} c with
          | none => none
          | some (gap, d) => double fuel (gap.text.reverse ++ acc) d
        else double fuel (x :: acc) c.next

/-! ## Block scalars -/

inductive Chomp where
  | strip
  | clip
  | keep
  deriving DecidableEq, Repr

def chomp? (c : Char) : Option Chomp := [('+', Chomp.keep), ('-', Chomp.strip)].lookup c

def increment? (c : Char) : Option Nat :=
  if c.isDigit && c ≠ '0' then some (c.toNat - '0'.toNat) else none

def blockHead (c : Cursor) : Chomp × Option Nat × Cursor :=
  match c.char?.bind chomp?, c.char?.bind increment? with
  | some chomp, _ =>
    match c.next.char?.bind increment? with
    | some n => (chomp, some n, c.forward 2)
    | none => (chomp, none, c.next)
  | none, some n =>
    match c.next.char?.bind chomp? with
    | some chomp => (chomp, some n, c.forward 2)
    | none => (.clip, some n, c.next)
  | none, none => (.clip, none, c)

/-- Passes over the spaces before the column `indent`, or over all if there is none yet. -/
def skipIndent (indent : Option Nat) : Nat → Cursor → Cursor
  | 0, c => c
  | fuel + 1, c =>
    if c.isAt ' ' && indent.all (c.column < ·) then skipIndent indent fuel c.next else c

/-- The breaks before the next line that is not empty, and the largest column reached. -/
def emptyLines (indent : Option Nat) :
    Nat → Nat → List Char → Cursor → Option (List Char × Nat × Cursor)
  | 0, _, _, _ => none
  | fuel + 1, widest, breaks, c =>
    let d := skipIndent indent fuel c
    let widest := max widest d.column
    match d.rest with
    | [] => some (breaks, widest, d)
    | x :: _ =>
      if x = '\t' && indent.all (d.column < ·) then none
      else if isBreak x then emptyLines indent fuel widest (breaks ++ [lineFeed x]) d.nextLine
      else some (breaks, widest, d)

/-- A block scalar while it is read: its text in reverse, the break at the end of the last
line, the breaks of the empty lines behind it, and whether that line starts with a blank. -/
structure BlockText where
  text : List Char
  last : List Char
  empty : List Char
  further : Bool

namespace BlockText

def joint (b : BlockText) (folded further : Bool) : List Char :=
  if folded && b.last = ['\n'] && !b.further && !further then
    if b.empty.isEmpty then [' '] else b.empty
  else b.last ++ b.empty

def scan (folded : Bool) (indent : Nat) : Nat → BlockText → Cursor → Option (BlockText × Cursor)
  | 0, _, _ => none
  | fuel + 1, b, c =>
    if c.column = indent && !c.atEnd then
      let further := c.char?.any isBlank
      let (line, d) := c.take fun x => !isBreak x
      let text := line.reverse ++ (b.joint folded further).reverse ++ b.text
      match emptyLines (some indent) fuel 0 [] d.nextLine with
      | none => none
      | some (empty, _, e) =>
        scan folded indent fuel ⟨text, d.char?.toList.map lineFeed, empty, further⟩ e
    else some (b, c)

def finish (b : BlockText) (chomp : Chomp) : String :=
  let ending :=
    match chomp with
    | .strip => []
    | .clip => b.last
    | .keep => b.last ++ b.empty
  String.ofList (b.text.reverse ++ ending)

end BlockText

/-- A block scalar from behind its first character. Its lines stand at `floor` or further in. -/
def block (folded : Bool) (floor fuel : Nat) (c : Cursor) : Option (String × Cursor) :=
  let (chomp, increment, c) := blockHead c
  let (_, c) := c.take isBlank
  let c := if c.isAt '#' then (c.take fun x => !isBreak x).2 else c
  if !c.char?.all isBreak then none
  else
    let indent := increment.map fun n => (floor - 1) + n
    match emptyLines indent fuel 0 [] c.nextLine with
    | none => none
    | some (empty, widest, c) =>
      let indent := indent.getD (max widest (max floor 1))
      (BlockText.scan folded indent fuel ⟨[], [], empty, false⟩ c).map fun (b, c) =>
        (b.finish chomp, c.allowKey true)

end RuleScout.Yaml
