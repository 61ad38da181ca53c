import RuleScout.Command.Report
import RuleScout.Config.Merge
import RuleScout.Config.Search
import RuleScout.Discovery.Outcome

/-!
# The lint command

The selected files are linted one by one with the configuration in force. A file that cannot
be parsed has one finding, the fault in it; a file that cannot be read has none.
-/

set_option autoImplicit false

namespace RuleScout

/-- A configuration with what it builds on merged into it. Only the recommended configuration
is known by name. -/
def Config.resolve (c : Config) (catalog : Catalog) : Config :=
  if c.parent = some recommendedName then c.merge catalog.recommendedConfig else c

namespace Project

variable [TextFormats] in
def resolveConfig (p : Project) (catalog : Catalog) (named : Option String) :
    Except Failure Config := do
  let c ← p.loadConfig named p.root
  return c.resolve catalog

end Project

namespace Finding

def ofSyntaxError (path : String) (e : SyntaxError) : Finding where
  rule := "syntax"
  severity := .error
  message := "Parsing error: " ++ e.message
  path := path
  line := e.line
  column := e.column

/-- The order of files and places. Findings at one place keep their order. -/
def placeLe (f g : Finding) : Bool :=
  if Path.same f.path g.path then
    f.line < g.line || (f.line = g.line && f.column ≤ g.column)
  else Path.le f.path g.path

end Finding

namespace Linter

def verifyFile (catalog : Catalog) (c : Config) (p : Project) (path : String) : List Finding :=
  match p.tree.read path with
  | .error _ => []
  | .ok text =>
    match SourceUnit.parse (p.shown path) text with
    | .ok u => verify catalog u c
    | .error e => [.ofSyntaxError (p.shown path) e]

/-- The number that keeps the check of a file from its end. -/
def fileOverflow? (catalog : Catalog) (c : Config) (p : Project) (path : String) :
    Option Word.Overflow :=
  match p.tree.read path with
  | .error _ => none
  | .ok text =>
    match SourceUnit.parse (p.shown path) text with
    | .ok u => overflow? catalog u c
    | .error _ => none

def verifyFiles (catalog : Catalog) (c : Config) (p : Project) (files : List String) :
    LintReport where
  files := files.length
  findings := (files.flatMap (verifyFile catalog c p)).mergeSort Finding.placeLe

end Linter

namespace Project

variable [PathSearch] [TextFormats]

def lint (p : Project) (catalog : Catalog) (named : Option String) (patterns : List String) :
    Except Failure LintReport := do
  let c ← p.resolveConfig catalog named
  match ← c.fileSelection.resolve p patterns with
  | [] => .error .nothingToLint
  | files => return Linter.verifyFiles catalog c p files

/-- The number that keeps a lint from its report, if it gets as far as the files. -/
def lintOverflow? (p : Project) (catalog : Catalog) (named : Option String)
    (patterns : List String) : Option Word.Overflow :=
  match p.resolveConfig catalog named with
  | .error _ => none
  | .ok c =>
    match c.fileSelection.resolve p patterns with
    | .error _ => none
    | .ok files => files.findSome? (Linter.fileOverflow? catalog c p)

end Project

def Effect.ofLint (p : Project) (style : ReportStyle) (ink : Ink) :
    Except Failure LintReport → Effect
  | .error f => .fail p.tree f
  | .ok r => { tree := p.tree, output := r.text style ink, verdict := r.verdict }

end RuleScout
