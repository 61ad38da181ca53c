import RuleScout.Files.Pattern
import RuleScout.Files.Tree

/-!
# Patterns over a tree of files

The parts of a pattern between slashes are matched with the names on the way down a tree. A
part without wildcards is taken as it is, whatever it leads to; `**` goes down any number of
directories, through links as well.
-/

set_option autoImplicit false

namespace RuleScout.Pattern

/-- The parts of an absolute pattern. Parts between doubled slashes are empty. -/
def partTexts (text : String) : List String :=
  match (text.splitOn "/").dropWhile (· = "") with
  | [] => [""]
  | all => if all.getLast? = some "" then all.dropLast else all

def compileParts (text : String) : Except PatternFault (List Pattern) :=
  (partTexts text).mapM compile

def startsWithDot (p : Pattern) : Bool := p.tokens.head? = some (.char '.')

mutual

def expand (t : FileTree) : Nat → String → List Pattern → List String
  | 0, _, _ => []
  | _ + 1, path, [] => [path]
  | fuel + 1, path, p :: ps =>
    match p.literal? with
    | some name =>
      let next := Path.join path name
      let found :=
        if name = "." || name = ".." then t.isDirectory path else t.isNamed next
      if found then expand t fuel next ps else []
    | none =>
      if t.isDirectory path then
        let special := [".", ".."].filter fun name => p.startsWithDot && p.matches? name
        (special.flatMap fun name => expand t fuel (Path.join path name) ps) ++
          (t.names path).flatMap fun name => visit t fuel (Path.join path name) name (p :: ps)
      else []

def visit (t : FileTree) : Nat → String → String → List Pattern → List String
  | 0, _, _, _ => []
  | fuel + 1, path, name, ps =>
    let matched (ps : List Pattern) : List String :=
      match ps with
      | [] => []
      | p :: ps =>
        if !p.matches? name then []
        else if ps.isEmpty then [path]
        else expand t fuel path ps
    match ps with
    | [] => []
    | p :: _ =>
      if !p.isRecursive then matched ps
      else
        let rest := ps.dropWhile isRecursive
        if t.isDirectory path then
          expand t fuel path (p :: rest) ++ if rest.isEmpty then [path] else matched rest
        else matched rest

end

/-- More steps than any way down a tree can have: between two links it goes down at most from
the top to the bottom. -/
def reach (t : FileTree) (parts : Nat) : Nat :=
  2 * ((FileTree.linkLimit + 2) * (t.height + 1) + parts + 2)

/-- The files that an absolute pattern stands for. A pattern with a slash at its end stands
for directories only. -/
def files (t : FileTree) (text : String) : Except PatternFault (List String) := do
  let _ ← compile text
  let parts ← compileParts text
  if text.endsWith "/" then return []
  else return (expand t (reach t parts.length) "/" parts).filter t.isFile

end RuleScout.Pattern
