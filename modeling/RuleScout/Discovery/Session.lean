import RuleScout.Discovery.Outcome
import RuleScout.Files.Selection

/-!
# Discovery in a project

The files that the patterns select are read and parsed, and the candidates are tried on them.
All files have to be readable: a single one that cannot be parsed ends the run, and so there
is either an outcome for all files or none.
-/

set_option autoImplicit false

namespace RuleScout

namespace Corpus

def readUnit (p : Project) (path : String) : Except Failure SourceUnit :=
  match p.tree.read (p.absolute path) with
  | .error fault => .error (.io path fault.message)
  | .ok text =>
    match SourceUnit.parse (p.shown path) text with
    | .error e => .error (.unparsable (p.shown path) e.line e.column e.message)
    | .ok u => .ok u

/-- Reads files one after the other. Each that succeeds is reported as one share. -/
def readUnits (p : Project) (total : Nat) : List String → Run (List SourceUnit)
  | [] => ⟨[], .ok []⟩
  | path :: paths =>
    match readUnit p path with
    | .error f => .stop f
    | .ok u => .cons [⟨1, total⟩] u (readUnits p total paths)

variable [PathSearch] in
def load (f : FileSelection) (p : Project) (patterns : List String) : Run Corpus :=
  match f.resolve p patterns with
  | .error failure => .stop failure
  | .ok [] => .stop (.noFiles patterns)
  | .ok paths => (readUnits p paths.length paths).map .ofUnits

end Corpus

/-- What a session has reported while it read the files and while it tried the candidates, and
how it came out. -/
structure Session where
  reading : List Report
  trying : List Report
  outcome : Except Failure Outcome

namespace Session

/-- The increments of the whole; the two stages have their weights. -/
def increments (s : Session) : List Float :=
  s.reading.map (fun r => scaled [loadingWeight] r.increment) ++
    s.trying.map fun r => scaled [trialsWeight] r.increment

def reportCount (s : Session) : Nat := s.reading.length + s.trying.length

variable [PathSearch] in
def run (catalog : Catalog) (f : FileSelection) (p : Project) (base : Config)
    (patterns : List String) (cancellation : Cancellation) : Session :=
  let loading := Corpus.load f p patterns
  match loading.outcome with
  | .error failure => ⟨loading.reports, [], .error failure⟩
  | .ok corpus =>
    let trials := Outcome.discover catalog corpus base cancellation loading.reports.length
    ⟨loading.reports, trials.reports, trials.outcome⟩

end Session

end RuleScout
