import RuleScout.Yaml.Folded

/-!
# YAML nodes

A document is a tree of scalars, lists and mappings. A scalar keeps how it was written, since
only a plain one may stand for something other than text.
-/

set_option autoImplicit false

namespace RuleScout.Yaml

inductive ScalarForm where
  | plain
  | quoted
  | literal
  | folded
  deriving DecidableEq, Repr

inductive Node where
  | scalar (tag : Option String) (form : ScalarForm) (text : String)
  | list (tag : Option String) (items : List Node)
  | mapping (tag : Option String) (fields : List (Node × Node))
  deriving Repr, Inhabited

structure Properties where
  anchor : Option String := none
  tag : Option String := none
  deriving DecidableEq, Repr

namespace Properties

def isEmpty (p : Properties) : Bool := p.anchor.isNone && p.tag.isNone

/-- Both together, unless one of them is given twice. -/
def union? (p q : Properties) : Option Properties :=
  if (p.anchor.isSome && q.anchor.isSome) || (p.tag.isSome && q.tag.isSome) then none
  else some ⟨p.anchor <|> q.anchor, p.tag <|> q.tag⟩

end Properties

/-- The place of a value that is not there. -/
def Node.absent : Node := .scalar none .plain ""

def Node.withTag (tag : Option String) : Node → Node
  | .scalar old form text => .scalar (tag <|> old) form text
  | .list old items => .list (tag <|> old) items
  | .mapping old fields => .mapping (tag <|> old) fields

/-! ## Tags and anchors -/

def coreTag (name : String) : String := "tag:yaml.org,2002:" ++ name

def isTagChar (c : Char) : Bool := isWordChar c || c ∈ ";/?:@&=+$.%!~*'()".toList

/-- Puts the bytes for the percent escapes of a tag; only ASCII is written that way here. -/
def unescapeTag : List Char → Option (List Char)
  | [] => some []
  | '%' :: a :: b :: cs =>
    (Number.natOf? 16 [a, b]).bind fun n =>
      if n < 0x80 then (unescapeTag cs).map (Char.ofNat n :: ·) else none
  | '%' :: _ => none
  | c :: cs => (unescapeTag cs).map (c :: ·)

def endsTag (flow : Bool) (c : Cursor) : Bool := c.isBlankAt 0 || (flow && c.isAt ',')

def scanTag (flow : Bool) (c : Cursor) : Option (String × Cursor) := do
  let finish (name : List Char) (c : Cursor) : Option (String × Cursor) :=
    if endsTag flow c then some (String.ofList name, c.allowKey false) else none
  if c.next.isAt '<' then
    let (uri, c) := (c.forward 2).take fun x => isTagChar x || x ∈ ",[]".toList
    if uri.isEmpty || !c.isAt '>' then none else finish (← unescapeTag uri) c.next
  else
    let (word, d) := c.next.take isWordChar
    if d.isAt '!' then
      let (suffix, e) := d.next.take isTagChar
      if !word.isEmpty || suffix.isEmpty then none
      else finish ((coreTag "").toList ++ (← unescapeTag suffix)) e
    else
      let (suffix, e) := c.next.take isTagChar
      finish ('!' :: (← unescapeTag suffix)) e

def nameEnds : List Char := "?:,]\x7d%@\x60".toList

def scanName (c : Cursor) : Option (String × Cursor) :=
  let (name, c) := c.next.take isWordChar
  if name.isEmpty || !(c.isBlankAt 0 || c.char?.any (· ∈ nameEnds)) then none
  else some (String.ofList name, c.allowKey false)

/-- The properties from here on, as far as they stand on one line, and the token behind
them. -/
def scanProperties (flow : Bool) : Nat → Properties → Cursor → Option (Properties × Cursor)
  | 0, _, _ => none
  | fuel + 1, p, c =>
    if c.isAt '&' && p.anchor.isNone then do
      let (name, d) ← scanName c
      let e := d.skip flow
      let p := { p with anchor := some name }
      if e.line = c.line then scanProperties flow fuel p e else return (p, e)
    else if c.isAt '!' && p.tag.isNone then do
      let (tag, d) ← scanTag flow c
      let e := d.skip flow
      let p := { p with tag := some tag }
      if e.line = c.line then scanProperties flow fuel p e else return (p, e)
    else some (p, c)

end RuleScout.Yaml
