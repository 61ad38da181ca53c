import RuleScout.Toml.Scalar
import RuleScout.Toml.Unquoted
import RuleScout.Toml.Table
import RuleScout.Toml.Quoted

/-!
# Reading TOML

A document is a sequence of lines: a header says which table the fields below it belong to.
Lists and tables in braces may go on over several lines.
-/

set_option autoImplicit false

namespace RuleScout.Toml

def skipComment (cs : List Char) : Option (List Char) :=
  match cs with
  | '#' :: cs => some (cs.dropWhile isTextChar)
  | cs => some cs

def skipSpace (cs : List Char) : List Char := cs.dropWhile isSpace

def skipAll : Nat → List Char → Option (List Char)
  | 0, _ => none
  | fuel + 1, cs => do
    let cs ← skipComment (skipSpace cs)
    match break? cs with
    | some cs => skipAll fuel cs
    | none => return cs

def endLine? (cs : List Char) : Option (List Char) := do
  let cs ← skipComment (skipSpace cs)
  if cs.isEmpty then some [] else break? cs

/-! ## Keys -/

def keyPart? (fuel : Nat) (cs : List Char) : Option (String × List Char) :=
  match cs with
  | '"' :: cs => basic fuel [] cs
  | '\'' :: cs => literal fuel [] cs
  | cs =>
    let word := cs.takeWhile isBareKeyChar
    if word.isEmpty then none else some (String.ofList word, cs.drop word.length)

/-- The parts of a dotted key: those before the last, and the last one. -/
def key? : Nat → List String → List Char → Option (List String × String × List Char)
  | 0, _, _ => none
  | fuel + 1, path, cs => do
    let (part, cs) ← keyPart? fuel (skipSpace cs)
    match skipSpace cs with
    | '.' :: cs => key? fuel (path ++ [part]) cs
    | cs => return (path, part, cs)

/-! ## Values -/

/-- A bare value. A space may part a date from the time. -/
def bare? (cs : List Char) : Option (Value × List Char) :=
  let word := cs.takeWhile isBareValueChar
  let rest := cs.drop word.length
  let whole :=
    match date? word, rest with
    | some (_, []), ' ' :: d :: _ =>
      if d.isDigit then word ++ ' ' :: rest.tail.takeWhile isBareValueChar else word
    | _, _ => word
  (bareValue? whole).map fun v => (v, cs.drop whole.length)

mutual

def value? : Nat → List Char → Option (Value × List Char)
  | 0, _ => none
  | fuel + 1, cs =>
    match cs with
    | '"' :: _ | '\'' :: _ => (unquote? fuel cs).map fun (s, cs) => (.string s, cs)
    | '[' :: cs => (items? fuel [] cs).map fun (vs, cs) => (.array vs, cs)
    | '\x7b' :: cs =>
      (braced? fuel [] cs).map fun (fs, cs) => (.object (Fields.toObject fs), cs)
    | cs => bare? cs

def items? : Nat → List Value → List Char → Option (List Value × List Char)
  | 0, _, _ => none
  | fuel + 1, acc, cs => do
    match ← skipAll fuel cs with
    | ']' :: cs => return (acc.reverse, cs)
    | cs =>
      let (v, cs) ← value? fuel cs
      match ← skipAll fuel cs with
      | ',' :: cs => items? fuel (v :: acc) cs
      | ']' :: cs => return ((v :: acc).reverse, cs)
      | _ => none

def braced? : Nat → Fields → List Char → Option (Fields × List Char)
  | 0, _, _ => none
  | fuel + 1, fs, cs => do
    match ← skipAll fuel cs with
    | '\x7d' :: cs => return (fs, cs)
    | cs =>
      let (path, name, cs) ← key? fuel [] cs
      let cs ← expect? '=' cs
      let (v, cs) ← value? fuel (skipSpace cs)
      let fs ← fs.put? path name v
      match ← skipAll fuel cs with
      | ',' :: cs => braced? fuel fs cs
      | '\x7d' :: cs => return (fs, cs)
      | _ => none

end

/-! ## Documents -/

/-- A document while it is read: its tables, and the path of the last header. -/
structure Document where
  root : Fields
  path : List String

namespace Document

def openTable? (path : List String) (name : String) (d : Document) : Option Document :=
  (Fields.within? (Fields.openTable? name) path d.root).map (⟨·, path ++ [name]⟩)

def openItem? (path : List String) (name : String) (d : Document) : Option Document :=
  (Fields.within? (Fields.openItem? name) path d.root).map (⟨·, path ++ [name]⟩)

def put? (path : List String) (name : String) (v : Value) (d : Document) : Option Document :=
  (Fields.within? (Fields.put? path name v) d.path d.root).map ({ d with root := · })

end Document

def statement? (fuel : Nat) (d : Document) (cs : List Char) : Option (Document × List Char) :=
  match cs with
  | '[' :: '[' :: cs => do
    let (path, name, cs) ← key? fuel [] cs
    let cs ← expect? ']' (← expect? ']' cs)
    return (← d.openItem? path name, cs)
  | '[' :: cs => do
    let (path, name, cs) ← key? fuel [] cs
    return (← d.openTable? path name, ← expect? ']' cs)
  | cs => do
    let (path, name, cs) ← key? fuel [] cs
    let (v, cs) ← value? fuel (skipSpace (← expect? '=' cs))
    return (← d.put? path name v, cs)

def statements? : Nat → Document → List Char → Option Document
  | 0, _, _ => none
  | fuel + 1, d, cs => do
    match ← skipAll fuel cs with
    | [] => return d
    | cs =>
      let (d, cs) ← statement? fuel d cs
      statements? fuel d (← endLine? cs)

/-- The fields of the root table of a document. Every step of the reader takes a character,
or goes one level down in front of one. -/
def read (text : String) : Option (List (String × Value)) :=
  let cs :=
    match text.toList with
    | '\uFEFF' :: cs => cs
    | cs => cs
  (statements? (4 * (cs.length + 2)) ⟨[], []⟩ cs).map fun d => d.root.toObject

end RuleScout.Toml
