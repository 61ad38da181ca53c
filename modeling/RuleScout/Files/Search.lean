import RuleScout.Files.Expansion

/-!
# Searching a tree of files

Whatever selects files asks three things: which paths a pattern matches, which files it stands for,
and which files are below a directory. It works the same with every way of answering them; the one
here is used unless another one is given.
-/

set_option autoImplicit false

namespace RuleScout

/-- `matcher` reads a pattern, `expand` answers the files that an absolute pattern stands for, and
`walk` those below a directory. -/
class PathSearch where
  matcher : String → Except PatternFault (String → Bool)
  expand : FileTree → String → Except PatternFault (List String)
  walk : FileTree → String → List String

instance : PathSearch where
  matcher text := (Pattern.compile text).map Pattern.matches?
  expand := Pattern.files
  walk t path := (((t.node? path).getD .empty).filesBelow path).map (·.1)

namespace PathSearch

/-- All files of a directory are listed, at any depth. -/
class ListsBelow [PathSearch] : Prop where
  mem_walk {t : FileTree} {path : String} {entries : List (String × FileTree)} {l : Location}
    {text : Option String} (hDirectory : t.node? path = some (.directory entries))
    (hFile : (FileTree.directory entries).at? l = some (.file text)) :
    l.foldl Path.join path ∈ walk t path

class KeepsAbsolute [PathSearch] : Prop where
  isAbsolute_expand {t : FileTree} {pattern path : String} {found : List String}
    (hPattern : Path.isAbsolute pattern = true) (hFound : expand t pattern = .ok found)
    (hPath : path ∈ found) : Path.isAbsolute path = true
  isAbsolute_walk {t : FileTree} {start path : String} (hStart : Path.isAbsolute start = true)
    (hPath : path ∈ walk t start) : Path.isAbsolute path = true

end PathSearch

end RuleScout
