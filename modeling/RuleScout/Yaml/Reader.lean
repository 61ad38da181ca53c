import RuleScout.Yaml.Node

/-!
# Reading YAML

The structure of a block comes from columns: the entries of a list or a mapping stand in one
column, and what belongs to an entry stands further in. `floor` is the first column that
belongs to the node that is read. Between brackets columns do not count.

A key takes one line and is followed by a colon. Whether a node is a key is therefore known
only behind it, and a mapping starts where its first key does.
-/

set_option autoImplicit false

namespace RuleScout.Yaml

structure Reading extends Cursor where
  named : List (String × Node)

namespace Reading

def moveTo (r : Reading) (c : Cursor) : Reading := { r with toCursor := c }

def next (r : Reading) : Reading := r.moveTo r.toCursor.next

def skip (flow : Bool) (r : Reading) : Reading := r.moveTo (r.toCursor.skip flow)

def past (flow keyAllowed : Bool) (r : Reading) : Reading :=
  r.moveTo ((r.toCursor.next.allowKey keyAllowed).skip flow)

def finish (r : Reading) (p : Properties) (n : Node) : Node × Reading :=
  let n := n.withTag p.tag
  match p.anchor with
  | some name => (n, { r with named := (name, n) :: r.named })
  | none => (n, r)

/-- Whether nothing is left of a block whose content starts at `floor`. A dash may stand one
column further out if the block is the value of a key. -/
def leaves (r : Reading) (floor : Nat) (dashAllowed : Bool) : Bool :=
  r.isOver ||
    (r.column < floor && !(dashAllowed && r.column + 1 = floor && r.isIndicator '-'))

/-- Whether the colon that stands here makes a key of the node from `start` on. -/
def endsKey (r : Reading) (start : Cursor) : Bool :=
  start.keyAllowed && start.line = r.line && r.column ≤ start.column + 1024

end Reading

inductive Entry where
  | single (n : Node)
  | pair (key value : Node)

def Entry.item : Entry → Node
  | .single n => n
  | .pair k v => .mapping none [(k, v)]

def Entry.field : Entry → Node × Node
  | .single n => (n, .absent)
  | .pair k v => (k, v)

def isListEnd (closing : Char) (r : Reading) : Bool := r.isAt ',' || r.isAt closing

mutual

def leaf (flow : Bool) (floor : Nat) : Nat → Reading → Option (Node × Reading)
  | 0, _ => none
  | fuel + 1, r =>
    let scalar (form : ScalarForm) (found : Option (String × Cursor)) : Option (Node × Reading) :=
      found.map fun (text, c) => (.scalar none form text, r.moveTo c)
    if r.atMark then none
    else
      match r.char? with
      | some '*' => do
        let (name, c) ← scanName r.toCursor
        return (← r.named.lookup name, r.moveTo c)
      | some '\'' => scalar .quoted (single fuel [] r.toCursor.next)
      | some '"' => scalar .quoted (double fuel [] r.toCursor.next)
      | some '[' => do
        let (entries, r) ← bracketed ']' fuel [] true (r.past true true)
        return (.list none (entries.map Entry.item), r)
      | some '\x7b' => do
        let (entries, r) ← bracketed '\x7d' fuel [] true (r.past true true)
        return (.mapping none (entries.map Entry.field), r)
      | _ =>
        if startsPlain flow r.toCursor then scalar .plain (plain flow floor fuel r.toCursor)
        else none

/-- A node between brackets, which may be empty if it has properties. -/
def flowNode : Nat → Reading → Option (Node × Reading)
  | 0, _ => none
  | fuel + 1, r => do
    let (p, c) ← scanProperties true fuel {} r.toCursor
    let (p, c) ← if p.isEmpty then some (p, c) else scanProperties true fuel p c
    let r := r.moveTo c
    if p.isEmpty then leaf true 0 fuel r
    else if r.char?.all fun x => x ∈ ",:]\x7d".toList then return r.finish p .absent
    else if r.isAt '*' then none
    else
      let (n, r) ← leaf true 0 fuel r
      return r.finish p n

def flowValue (closing : Char) : Nat → Reading → Option (Node × Reading)
  | 0, _ => none
  | fuel + 1, r =>
    let r := r.past true false
    if isListEnd closing r then some (.absent, r) else flowNode fuel r

def entry (closing : Char) : Nat → Reading → Option (Entry × Reading)
  | 0, _ => none
  | fuel + 1, r =>
    if r.isAt '?' then do
      let r := r.past true false
      let (key, r) ←
        if isListEnd closing r || r.isAt ':' then some (Node.absent, r) else flowNode fuel r
      let r := r.skip true
      if r.isAt ':' then
        let (v, r) ← flowValue closing fuel r
        return (.pair key v, r)
      else return (.pair key .absent, r)
    else do
      let start := r.toCursor
      let (n, r) ← flowNode fuel r
      let r := r.skip true
      if r.isAt ':' then
        if r.endsKey start then
          let (v, r) ← flowValue closing fuel r
          return (.pair n v, r)
        else none
      else return (.single n, r)

def bracketed (closing : Char) : Nat → List Entry → Bool → Reading →
    Option (List Entry × Reading)
  | 0, _, _, _ => none
  | fuel + 1, acc, isFirst, r =>
    let stop (r : Reading) : Option (List Entry × Reading) :=
      some (acc.reverse, r.moveTo (r.toCursor.next.allowKey false))
    if r.isOver then none
    else if r.isAt closing then stop r
    else if !isFirst && !r.isAt ',' then none
    else
      let r := if isFirst then r else r.past true true
      if r.isAt closing then stop r
      else
        match entry closing fuel r with
        | none => none
        | some (e, r) => bracketed closing fuel (e :: acc) false (r.skip true)

end

mutual

/-- A node of a block, from its first token on. `outer` are properties from lines before. -/
def node (floor : Nat) : Nat → Properties → Bool → Reading → Option (Node × Reading)
  | 0, _, _, _ => none
  | fuel + 1, outer, dashAllowed, r => do
    let (inner, c) ← scanProperties false fuel {} r.toCursor
    let start := r.toCursor
    let r := r.moveTo c
    if inner.isEmpty || c.line = start.line then
      content floor fuel outer inner dashAllowed start r
    else
      let outer ← outer.union? inner
      if r.leaves floor dashAllowed then return r.finish outer .absent
      else node floor fuel outer dashAllowed r

/-- A node of a block behind its properties. If it turns out to be a key, `inner` are those of
the key, and the mapping starts at `start`. -/
def content (floor : Nat) : Nat → Properties → Properties → Bool → Cursor → Reading →
    Option (Node × Reading)
  | 0, _, _, _, _, _ => none
  | fuel + 1, outer, inner, dashAllowed, start, r =>
    let whole : Option Properties := outer.union? inner
    let keep (found : Option (Node × Reading)) : Option (Node × Reading) := do
      let (n, r) ← found
      return r.finish (← whole) n
    if r.isIndicator '-' && !r.atMark then
      if !r.keyAllowed then none
      else keep do
        let (items, r) ← blockItems r.column fuel [] (!dashAllowed || floor ≤ r.column) r
        return (.list none items, r)
    else if r.isIndicator '?' then
      if !r.keyAllowed then none
      else keep do
        let (fields, r) ← blockFields r.column fuel [] r
        return (.mapping none fields, r)
    else if r.isAt '|' then
      keep ((block false floor fuel r.toCursor.next).map fun (text, c) =>
        (.scalar none .literal text, r.moveTo c))
    else if r.isAt '>' then
      keep ((block true floor fuel r.toCursor.next).map fun (text, c) =>
        (.scalar none .folded text, r.moveTo c))
    else do
      let (n, behind) ←
        if !inner.isEmpty && (r.atEnd || r.isIndicator ':') then some (Node.absent, r)
        else if !inner.isEmpty && r.isAt '*' then none
        else leaf false floor fuel r
      let colon := behind.skip false
      if colon.isIndicator ':' && !colon.keyAllowed then
        if !colon.endsKey start then none
        else
          let (key, colon) := colon.finish inner n
          let (v, r) ← blockValue start.column fuel false colon
          let (fields, r) ← blockFields start.column fuel [(key, v)] r
          return r.finish outer (.mapping none fields)
      else if !outer.isEmpty && r.isAt '*' then none
      else return behind.finish (← whole) n

/-- The items of a list whose dashes stand at `column`. A list in the column of a key ends
where no dash follows; any other must end further out. -/
def blockItems (column : Nat) : Nat → List Node → Bool → Reading →
    Option (List Node × Reading)
  | 0, _, _, _ => none
  | fuel + 1, acc, ownColumn, r =>
    let r := r.skip false
    if r.isOver || r.column < column then some (acc.reverse, r)
    else if r.column = column && r.isIndicator '-' then
      let r := r.past false true
      let item :=
        if r.leaves (column + 1) false then some (Node.absent, r)
        else node (column + 1) fuel {} false r
      match item with
      | none => none
      | some (n, r) => blockItems column fuel (n :: acc) ownColumn r
    else if ownColumn then none
    else some (acc.reverse, r)

def blockValue (column : Nat) : Nat → Bool → Reading → Option (Node × Reading)
  | 0, _, _ => none
  | fuel + 1, keyAllowed, r =>
    let r := r.past false keyAllowed
    if r.leaves (column + 1) true then some (.absent, r)
    else node (column + 1) fuel {} true r

def blockFields (column : Nat) : Nat → List (Node × Node) → Reading →
    Option (List (Node × Node) × Reading)
  | 0, _, _ => none
  | fuel + 1, acc, r =>
    let r := r.skip false
    if r.isOver || r.column < column then some (acc.reverse, r)
    else if column < r.column then none
    else if r.isIndicator '?' then do
      let r := r.past false true
      let (key, r) ←
        if r.leaves (column + 1) true then some (Node.absent, r)
        else node (column + 1) fuel {} true r
      let r := r.skip false
      if !r.isOver && r.column = column && r.isIndicator ':' then
        let (v, r) ← blockValue column fuel true r
        blockFields column fuel ((key, v) :: acc) r
      else blockFields column fuel ((key, .absent) :: acc) r
    else do
      let (p, c) ← scanProperties false fuel {} r.toCursor
      let start := r.toCursor
      let r := r.moveTo c
      let (n, r) ←
        if p.isEmpty then leaf false (column + 1) fuel r
        else if c.line ≠ start.line || r.isAt '*' then none
        else if r.isIndicator ':' then some (Node.absent, r)
        else leaf false (column + 1) fuel r
      let (key, r) := (r.skip false).finish p n
      if r.isIndicator ':' && r.endsKey start then
        let (v, r) ← blockValue column fuel false r
        blockFields column fuel ((key, v) :: acc) r
      else none

end

/-! ## Documents -/

def skipDirectives : Nat → Cursor → Option (Bool × Cursor)
  | 0, _ => none
  | fuel + 1, c =>
    let c := c.skip false
    if c.column = 0 && c.isAt '%' then
      let (line, d) := c.next.take fun x => !isBreak x
      let words := ((String.ofList line).splitOn " ").filter (· ≠ "")
      match words with
      | "YAML" :: version :: comment =>
        if version ∈ ["1.1", "1.2"] && comment.head?.all (·.startsWith "#") then
          match skipDirectives fuel d with
          | some (false, e) => some (true, e)
          | _ => none
        else none
      | _ => none
    else some (false, c)

def isFinished : Nat → Cursor → Bool
  | 0, _ => false
  | fuel + 1, c =>
    let c := c.skip false
    if c.atEnd then true
    else if c.atMark && c.isAt '.' then isFinished fuel ((c.forward 3).allowKey false)
    else false

def read (text : String) : Option Node :=
  let cs := text.toList
  let fuel := 8 * (cs.length + 2)
  if !cs.all isReadable then none
  else
    match skipDirectives fuel (.ofText cs) with
    | none => none
    | some (directed, c) =>
      let marked := c.atMark && c.isAt '-'
      if (directed && !marked) || (c.atMark && c.isAt '.') then none
      else
        let c := if marked then ((c.forward 3).allowKey false).skip false else c
        let root :=
          if c.isOver then some (Node.absent, ⟨c, []⟩) else node 0 fuel {} false ⟨c, []⟩
        match root with
        | none => none
        | some (n, r) => if isFinished fuel r.toCursor then some n else none

end RuleScout.Yaml
