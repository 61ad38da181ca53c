/-!
# Paths

A path is kept as it is spelled. Two spellings name the same place when their parts agree:
doubled slashes, a slash at the end and single dots after the start do not count. Paths are
ordered part by part.
-/

set_option autoImplicit false

namespace RuleScout.Path

inductive Part where
  | root
  | here
  | up
  | name (text : String)
  deriving DecidableEq, Repr

namespace Part

def rank : Part → Nat
  | .root => 0
  | .here => 1
  | .up => 2
  | .name _ => 3

def text : Part → String
  | .name text => text
  | _ => ""

def before (a b : Part) : Bool := a.rank < b.rank || (a.rank = b.rank && a.text < b.text)

end Part

def pieces (path : String) : List String := (path.splitOn "/").filter (· ≠ "")

def isAbsolute (path : String) : Bool := path.toList.head? = some '/'

def partOf (piece : String) : Part := if piece = ".." then .up else .name piece

/-- The parts of a path. A single dot counts only at the start of a relative path. -/
def parts (path : String) : List Part :=
  let all := pieces path
  let named := (all.filter (· ≠ ".")).map partOf
  if isAbsolute path then .root :: named
  else if all.head? = some "." then .here :: named
  else named

def partsLe : List Part → List Part → Bool
  | [], _ => true
  | _ :: _, [] => false
  | a :: as, b :: bs => if a = b then partsLe as bs else a.before b

def le (a b : String) : Bool := partsLe (parts a) (parts b)

/-- Whether two spellings name the same place. -/
def same (a b : String) : Bool := parts a = parts b

/-- A path below another. An absolute path stands for itself. -/
def join (base path : String) : String :=
  if isAbsolute path || base = "" then path
  else if base.endsWith "/" then base ++ path
  else base ++ "/" ++ path

def trimStart : List Char → List Char
  | '/' :: cs => trimStart cs
  | '.' :: '/' :: cs => trimStart cs
  | ['.'] => []
  | cs => cs

def dropParts : Nat → List Char → List Char
  | 0, cs => trimStart cs
  | n + 1, cs => dropParts n ((trimStart cs).dropWhile (· ≠ '/'))

/-- What is left of a path below a base; a path that is not below it is left as it is. -/
def relativeTo (base path : String) : String :=
  if isAbsolute base && (parts base).isPrefixOf (parts path) then
    String.ofList (dropParts ((parts base).length - 1) path.toList)
  else path

def fileName? (path : String) : Option String :=
  match (parts path).getLast? with
  | some (.name text) => some text
  | _ => none

/-- What stands behind the last point of a file name. A point at its start does not count. -/
def extension? (path : String) : Option String := do
  match (← fileName? path).splitOn "." with
  | [_] | ["", _] => none
  | pieces => pieces.getLast?

end RuleScout.Path
