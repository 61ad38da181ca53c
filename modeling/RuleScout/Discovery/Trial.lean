import RuleScout.Linter
import RuleScout.Failure
import RuleScout.Files.Path
import RuleScout.Discovery.Candidate
import RuleScout.Discovery.Progress

/-!
# Trials

A trial lints the files of a corpus with one candidate as the only rule and stops at the first
file with a finding. A run goes through the rules of a registry in order and tries all
candidates of each. One share of progress is one file for one candidate; when a trial stops
early, the files it skips are reported in one piece.
-/

set_option autoImplicit false

namespace RuleScout

structure Corpus where
  units : List SourceUnit
  deriving DecidableEq, Repr

namespace Corpus

def ofUnits (us : List SourceUnit) : Corpus :=
  ⟨us.mergeSort fun a b => Path.le a.path b.path⟩

def size (c : Corpus) : Nat := c.units.length

def paths (c : Corpus) : List String := c.units.map (·.path)

end Corpus

structure TrialResult where
  candidate : Candidate
  clean : Bool
  deriving DecidableEq, Repr

namespace Trial

/-- The base with the candidate as its only rule. -/
def config (base : Config) (c : Candidate) : Config :=
  base.withRules (NameMap.empty.insert c.rule c.setting)

def fails (catalog : Catalog) (base : Config) (c : Candidate) (u : SourceUnit) : Bool :=
  (Linter.verify catalog u (config base c)).any (·.rule = c.rule)

def firstFailing (catalog : Catalog) (base : Config) (corpus : Corpus) (c : Candidate) :
    Option Nat :=
  corpus.units.findIdx? (fails catalog base c)

/-- The number that keeps a trial from its end, on the files that it gets to. -/
def overflow? (catalog : Catalog) (base : Config) (c : Candidate) :
    List SourceUnit → Option Word.Overflow
  | [] => none
  | u :: us =>
    match Linter.overflow? catalog u (config base c) with
    | some e => some e
    | none => if fails catalog base c u then none else overflow? catalog base c us

/-- Whether a candidate yields no finding of its own rule on any file. -/
def isClean (catalog : Catalog) (base : Config) (corpus : Corpus) (c : Candidate) : Bool :=
  (firstFailing catalog base corpus c).isNone

/-- The reports of one trial over `units` files, given the first file that fails. -/
def reports (units total : Nat) : Option Nat → List Report
  | none => List.replicate units ⟨1, total⟩
  | some i => List.replicate (i + 1) ⟨1, total⟩ ++ [⟨units - i - 1, total⟩]

end Trial

structure Run (α : Type) where
  reports : List Report
  outcome : Except Failure α

namespace Run

variable {α β : Type}

def stop (f : Failure) : Run α := ⟨[], .error f⟩

def map (g : α → β) (r : Run α) : Run β := ⟨r.reports, r.outcome.map g⟩

def cons (reports : List Report) (a : α) (r : Run (List α)) : Run (List α) :=
  ⟨reports ++ r.reports, r.outcome.map (a :: ·)⟩

/-- Goes on behind a run that came to its end. What comes next is told how many results there
are and how many reports were made. -/
def andThen (r : Run (List α)) (next : Nat → Nat → Run (List α)) : Run (List α) :=
  match r.outcome with
  | .error f => ⟨r.reports, .error f⟩
  | .ok results =>
    let rest := next results.length r.reports.length
    ⟨r.reports ++ rest.reports, rest.outcome.map (results ++ ·)⟩

end Run

namespace Trial

/-- The setting of a run. `candidates` is their total number, and `earlier` the number of
reports that were made before the run. -/
structure Plan where
  catalog : Catalog
  base : Config
  corpus : Corpus
  candidates : Nat
  earlier : Nat
  cancellation : Cancellation

/-- Tries candidates of one rule after `completed` trials of the run have been completed and
`reported` reports made. -/
def runCandidates (p : Plan) (completed reported : Nat) : List Candidate → Run (List TrialResult)
  | [] => ⟨[], .ok []⟩
  | c :: cs =>
    if p.cancellation.inForce (p.earlier + reported) then
      .stop (.cancelled completed p.candidates)
    else
      let failing := firstFailing p.catalog p.base p.corpus c
      let made := reports p.corpus.size (p.candidates * p.corpus.size) failing
      .cons made ⟨c, failing.isNone⟩
        (runCandidates p (completed + 1) (reported + made.length) cs)

def runEntries (p : Plan) (completed reported : Nat) : List RuleEntry → Run (List TrialResult)
  | [] => ⟨[], .ok []⟩
  | e :: es =>
    if p.catalog.contains e.rule then
      (runCandidates p completed reported e.candidates).andThen fun results reports =>
        runEntries p (completed + results) (reported + reports) es
    else .stop (.rule e.rule "not found in the rule catalog")

def run (catalog : Catalog) (registry : Registry) (corpus : Corpus) (base : Config)
    (cancellation : Cancellation) (earlier : Nat) : Run (List TrialResult) :=
  runEntries ⟨catalog, base, corpus, registry.candidateCount, earlier, cancellation⟩ 0 0
    registry.entries

end Trial

end RuleScout
