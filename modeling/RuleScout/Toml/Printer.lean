import RuleScout.Value
import RuleScout.Number.Layout
import RuleScout.Toml.Quoted

/-!
# Writing TOML

The fields of a table come first, then its subtables under headers of their own; a list of
tables is written as repeated headers. A list of two or more items has a line for each item.
Inside a list, tables are written in braces. There is no way to write null.
-/

set_option autoImplicit false

namespace RuleScout.Toml

inductive Placement where
  | field
  | table
  | tables
  deriving DecidableEq, Repr

def isTable : Value → Bool
  | .object _ => true
  | _ => false

def placement : Value → Placement
  | .object _ => .table
  | .array [] => .field
  | .array items => if items.all isTable then .tables else .field
  | _ => .field

def listOf (items : List String) : String :=
  match items with
  | [] => "[]"
  | [item] => "[" ++ item ++ "]"
  | items => "[" ++ String.join (items.map fun i => "\n    " ++ i ++ ",") ++ "\n]"

def bracedOf (fields : List String) : String :=
  match fields with
  | [] => "\x7b\x7d"
  | fields => "\x7b " ++ ", ".intercalate fields ++ " \x7d"

mutual

def inline? : Value → Option String
  | .null => none
  | .bool b => some (if b then "true" else "false")
  | .int n => some (toString n)
  | .float x => some x.positional
  | .string s => some (quoted s)
  | .array vs => (inlineItems? vs).map listOf
  | .object fs => (inlineFields? fs).map bracedOf

def inlineItems? : List Value → Option (List String)
  | [] => some []
  | v :: vs => do return (← inline? v) :: (← inlineItems? vs)

def inlineFields? : List (String × Value) → Option (List String)
  | [] => some []
  | (k, v) :: fs => do return (key k ++ " = " ++ (← inline? v)) :: (← inlineFields? fs)

end

/-- A table with the path of its header. An unwanted header is left out together with its
table. -/
structure Section where
  path : List String
  repeated : Bool
  body : List String
  hasChildren : Bool

namespace Section

/-- A header is needed unless other headers imply the table. -/
def isNeeded (s : Section) : Bool :=
  if s.path.isEmpty then !s.body.isEmpty
  else s.repeated || !s.body.isEmpty || !s.hasChildren

def header (s : Section) : String :=
  let name := ".".intercalate (s.path.map key)
  if s.path.isEmpty then ""
  else if s.repeated then "[[" ++ name ++ "]]\n"
  else "[" ++ name ++ "]\n"

def print (s : Section) : String := s.header ++ String.join (s.body.map (· ++ "\n"))

end Section

/-- What the fields of a table come to: its own lines, and the sections of its subtables. -/
structure Split where
  body : List String
  children : List Section

namespace Split

def empty : Split := ⟨[], []⟩

def addLine (name text : String) (s : Split) : Split :=
  { s with body := (key name ++ " = " ++ text) :: s.body }

def addSections (sections : List Section) (s : Split) : Split :=
  { s with children := sections ++ s.children }

def sections (path : List String) (repeated : Bool) (s : Split) : List Section :=
  ⟨path, repeated, s.body, !s.children.isEmpty⟩ :: s.children

end Split

mutual

def field? (path : List String) (name : String) (rest : Split) : Value → Option Split
  | .object fs => do
    let inner ← split? (path ++ [name]) fs
    return rest.addSections (inner.sections (path ++ [name]) false)
  | .array vs =>
    if placement (.array vs) = .tables then do
      return rest.addSections (← tables? (path ++ [name]) vs)
    else
      (inline? (.array vs)).map (rest.addLine name)
  | .null => none
  | .bool b => (inline? (.bool b)).map (rest.addLine name)
  | .int n => (inline? (.int n)).map (rest.addLine name)
  | .float x => (inline? (.float x)).map (rest.addLine name)
  | .string s => (inline? (.string s)).map (rest.addLine name)

def split? (path : List String) : List (String × Value) → Option Split
  | [] => some .empty
  | (k, v) :: fs => do field? path k (← split? path fs) v

def tables? (path : List String) : List Value → Option (List Section)
  | [] => some []
  | .object fs :: vs => do
    let inner ← split? path fs
    return inner.sections path true ++ (← tables? path vs)
  | _ :: _ => none

end

def print? (fields : List (String × Value)) : Option String := do
  let root ← split? [] fields
  return "\n".intercalate (((root.sections [] false).filter Section.isNeeded).map Section.print)

end RuleScout.Toml
