import RuleScout.Files.Path

/-!
# Trees of files

A tree of directories, files and symbolic links. A path is resolved to a location, the names
from the root of the tree down to a node; on the way links are followed, up to a limit.
-/

set_option autoImplicit false

namespace RuleScout

/-- The text of a file is missing if its bytes are no text. -/
inductive FileTree where
  | file (text : Option String)
  | link (target : String)
  | directory (entries : List (String × FileTree))
  deriving Repr, Inhabited

abbrev Location := List String

namespace Location

def toPath (l : Location) : String := "/" ++ "/".intercalate l

/-- A location and the directories above it, the nearest first. -/
def ascending : Location → List Location
  | [] => [[]]
  | name :: rest => (ascending rest).map (name :: ·) ++ [[]]

end Location

inductive PathFault where
  | missing
  | notDirectory
  | isDirectory
  | tooManyLinks
  | notText
  deriving DecidableEq, Repr

def PathFault.message : PathFault → String
  | .missing => "No such file or directory (os error 2)"
  | .notDirectory => "Not a directory (os error 20)"
  | .isDirectory => "Is a directory (os error 21)"
  | .tooManyLinks => "Too many levels of symbolic links (os error 40)"
  | .notText => "stream did not contain valid UTF-8"

namespace FileTree

def empty : FileTree := .directory []

def at? : Location → FileTree → Option FileTree
  | [], t => some t
  | name :: rest, .directory entries => (entries.lookup name).bind (at? rest)
  | _ :: _, _ => none

mutual

def height : FileTree → Nat
  | .directory entries => heightOfEntries entries
  | .file _ | .link _ => 0

def heightOfEntries : List (String × FileTree) → Nat
  | [] => 0
  | (_, t) :: rest => max (t.height + 1) (heightOfEntries rest)

end

mutual

/-- The files of a tree with their paths below `path`. Links are no files. -/
def filesBelow (path : String) : FileTree → List (String × Option String)
  | .directory entries => filesOfEntries path entries
  | .file _ | .link _ => []

def filesOfEntries (path : String) :
    List (String × FileTree) → List (String × Option String)
  | [] => []
  | (name, .file text) :: rest => (Path.join path name, text) :: filesOfEntries path rest
  | (name, .directory entries) :: rest =>
    filesOfEntries (Path.join path name) entries ++ filesOfEntries path rest
  | (_, .link _) :: rest => filesOfEntries path rest

end

/-! ## Resolving paths -/

def linkLimit : Nat := 40

/-- The names of a path. A slash at the end asks for a directory, like a dot. -/
def steps (path : String) : List String :=
  Path.pieces path ++ (if path.endsWith "/" then ["."] else [])

/-- Where a way ends: at a location, at one that is still free in a directory, at a link, or
not at all. -/
inductive Stop where
  | arrived (l : Location)
  | absent (l : Location)
  | link (parent : Location) (target : String) (rest : List String)
  | fault (f : PathFault)

/-- Goes on from a location, up to the first link. -/
def advance (t : FileTree) (here : Location) : List String → Stop
  | [] => .arrived here
  | step :: rest =>
    match t.at? here with
    | some (.directory entries) =>
      if step = "." then advance t here rest
      else if step = ".." then advance t here.dropLast rest
      else
        match entries.lookup step with
        | none => if rest = [] then .absent (here ++ [step]) else .fault .missing
        | some (.link target) => .link here target rest
        | some _ => advance t (here ++ [step]) rest
    | some _ => .fault .notDirectory
    | none => .fault .missing

def linkStart (parent : Location) (target : String) : Location :=
  if Path.isAbsolute target then [] else parent

/-- Follows at most so many links. The last name of the way may be free. -/
def follow (t : FileTree) : Nat → Location → List String → Except PathFault Location
  | links, here, way =>
    match t.advance here way with
    | .arrived l | .absent l => .ok l
    | .fault f => .error f
    | .link parent target rest =>
      match links with
      | 0 => .error .tooManyLinks
      | links + 1 => t.follow links (linkStart parent target) (steps target ++ rest)

def locate (t : FileTree) (way : List String) : Except PathFault Location := do
  let l ← t.follow linkLimit [] way
  if (t.at? l).isSome then .ok l else .error .missing

def resolve (t : FileTree) (path : String) : Except PathFault Location := t.locate (steps path)

def node? (t : FileTree) (path : String) : Option FileTree :=
  match t.resolve path with
  | .ok l => t.at? l
  | .error _ => none

def isPresent (t : FileTree) (path : String) : Bool := (t.node? path).isSome

def isFile (t : FileTree) (path : String) : Bool :=
  match t.node? path with
  | some (.file _) => true
  | _ => false

def isDirectory (t : FileTree) (path : String) : Bool :=
  match t.node? path with
  | some (.directory _) => true
  | _ => false

/-- Whether a path leads to something, or to a link that leads nowhere. -/
def isNamed (t : FileTree) (path : String) : Bool :=
  t.isPresent path ||
    match t.follow linkLimit [] (steps path).dropLast, (steps path).getLast? with
    | .ok l, some name =>
      match t.at? l with
      | some (.directory entries) => (entries.lookup name).isSome
      | _ => false
    | _, _ => false

def names (t : FileTree) (path : String) : List String :=
  match t.node? path with
  | some (.directory entries) => entries.map (·.1)
  | _ => []

def read (t : FileTree) (path : String) : Except PathFault String := do
  match t.at? (← t.resolve path) with
  | some (.file (some text)) => .ok text
  | some (.file none) => .error .notText
  | some (.directory _) => .error .isDirectory
  | some (.link _) | none => .error .missing

/-! ## Writing -/

def destination (t : FileTree) (way : List String) : Except PathFault Location := do
  let l ← t.follow linkLimit [] way
  match t.at? l with
  | none | some (.file _) => .ok l
  | some (.directory _) => .error .isDirectory
  | some (.link _) => .error .missing

/-- Puts a node at a location. Directories that are missing on the way are created. -/
def put : FileTree → Location → FileTree → FileTree
  | _, [], node => node
  | .directory entries, name :: rest, node =>
    if (entries.lookup name).isSome then
      .directory (entries.map fun (n, t) => if n = name then (n, t.put rest node) else (n, t))
    else .directory (entries ++ [(name, empty.put rest node)])
  | t, _ :: _, _ => t

/-- The location that is written to by a path. A path with a slash at its end can stand for a
directory only. -/
def writable (t : FileTree) (path : String) : Except PathFault Location := do
  if path.endsWith "/" then
    match t.at? (← t.locate (Path.pieces path).dropLast) with
    | some (.directory _) => .error .isDirectory
    | _ => .error .notDirectory
  else t.destination (steps path)

def write (t : FileTree) (path text : String) : Except PathFault FileTree :=
  (t.writable path).map fun l => t.put l (.file (some text))

end FileTree

end RuleScout
