import RuleScout.Config.Basic
import RuleScout.Failure
import RuleScout.Files.Search
import RuleScout.Text.Blank
import RuleScout.Text.Lowercase

/-!
# Selecting the files of a project

Each pattern is a file, a directory, which stands for the files in it with one of the chosen
extensions, or a pattern of paths. What the patterns stand for is put together, and what is
excluded by the configuration or by the ignore file of the project is left out.
-/

set_option autoImplicit false

namespace RuleScout

/-- The tree that a command works on, and the absolute path of the directory in which it
runs. -/
structure Project where
  tree : FileTree
  root : String

namespace Project

def absolute (p : Project) (path : String) : String := Path.join p.root path

def shown (p : Project) (path : String) : String := Path.relativeTo p.root path

end Project

/-! ## Sets of paths -/

namespace Path

/-- Inserts a path unless its place is there already. -/
def insertPath (path : String) : List String → List String
  | [] => [path]
  | q :: qs =>
    if same path q then q :: qs
    else if le path q then path :: q :: qs
    else q :: insertPath path qs

def insertAll (set paths : List String) : List String :=
  paths.foldl (fun set path => insertPath path set) set

end Path

/-! ## What patterns stand for -/

def ignoreFileName : String := ".lintseedignore"

namespace FileSelection

def patterns (f : FileSelection) (given : List String) : List String :=
  if given.isEmpty then f.included.getD ["."] else given

/-- Whether a file is picked up from a directory; case does not count. -/
def picks (f : FileSelection) (path : String) : Bool :=
  (Path.extension? path).any fun extension =>
    f.extensionList.any fun allowed => Text.lowercase allowed = Text.lowercase extension

def absolutePattern (root pattern : String) : String :=
  if Path.isAbsolute pattern then pattern else root ++ "/" ++ pattern

section Found

variable [PathSearch]

def below (f : FileSelection) (t : FileTree) (path : String) : List String :=
  (PathSearch.walk t path).filter f.picks

def found (f : FileSelection) (p : Project) (pattern : String) : Except Failure (List String) :=
  let path := if pattern = "." then p.root else p.absolute pattern
  if p.tree.isFile path then .ok [path]
  else if p.tree.isDirectory path then .ok (f.below p.tree path)
  else
    (PathSearch.expand p.tree (absolutePattern p.root pattern)).mapError (.badPattern .glob pattern)

def foundAll (f : FileSelection) (p : Project) :
    List String → Except Failure (List String)
  | patterns => patterns.foldlM (fun set q => return Path.insertAll set (← f.found p q)) []

end Found

end FileSelection

/-! ## What is left out -/

def textLines (text : String) : List (List Char) :=
  let all := (text.splitOn "\n").map String.toList
  let all := if all.getLast? = some [] then all.dropLast else all
  all.map fun line => if line.getLast? = some '\r' then line.dropLast else line

/-- The pattern that a line of an ignore file stands for. A name followed by a slash stands
for what is in that directory, and a bare name for files in any directory. -/
def ignorePattern (line : List Char) : String :=
  let text := String.ofList line
  if line.getLast? = some '/' then text ++ "**"
  else if line.any fun c => c = '*' || c = '?' || c = '/' then text
  else "**/" ++ text

section LeftOut

variable [PathSearch]

/-- The patterns of an ignore file. Comments, empty lines and lines with flaws do not
count. -/
def ignorePatterns (text : String) : List (String → Bool) :=
  let lines := (textLines text).map Text.trim
  let lines := lines.filter fun line => !line.isEmpty && line.head? ≠ some '#'
  lines.filterMap fun line => (PathSearch.matcher (ignorePattern line)).toOption

namespace FileSelection

def compileExcluded (f : FileSelection) : Except Failure (List (String → Bool)) :=
  f.excludePatterns.mapM fun text =>
    (PathSearch.matcher text).mapError (.badPattern .exclude text)

def ignored (p : Project) : List (String → Bool) :=
  match p.tree.read (p.absolute ignoreFileName) with
  | .ok text => ignorePatterns text
  | .error _ => []

/-- The absolute paths of the files of a project that the patterns select, in the order of
paths and each once. -/
def resolve (f : FileSelection) (p : Project) (given : List String) :
    Except Failure (List String) := do
  let files ← f.foundAll p (f.patterns given)
  let leftOut := (← f.compileExcluded) ++ ignored p
  return files.filter fun path => !leftOut.any (· (p.shown path))

end FileSelection

end LeftOut

end RuleScout
