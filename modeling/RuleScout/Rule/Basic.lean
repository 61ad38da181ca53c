import RuleScout.Number.Word
import RuleScout.Source.Unit
import RuleScout.Rule.Metadata
import RuleScout.Rule.Options

/-!
# Rules

A rule looks at a source unit under given options and reports violations. Many rules need no
more than the code of the unit; such a rule reports sites, and the columns are filled in
afterwards, so it cannot depend on spacing or comments. A rule that computes with words has no
answer where a number does not fit.
-/

set_option autoImplicit false

namespace RuleScout

structure Violation where
  message : String
  line : Nat
  column : Nat
  deriving DecidableEq, Repr

namespace Violation

def atStart (t : Token) (message : String) : Violation := ⟨message, t.line, t.column⟩

def atEnd (t : Token) (message : String) : Violation := ⟨message, t.endLine, t.endColumn⟩

end Violation

/-- `check` answers the violations, and `overflow?` the number that keeps a check from its
answer, if there is one. -/
structure Rule where
  metadata : RuleMetadata
  check : SourceUnit → Options → List Violation
  overflow? : SourceUnit → Options → Option Word.Overflow := fun _ _ => none

/-- A place in the code: a lexeme, or the gap behind it. -/
structure Site where
  position : Nat
  behind : Bool
  message : String
  deriving DecidableEq, Repr

namespace Site

def start (position : Nat) (message : String) : Site := ⟨position, false, message⟩

def stop (position : Nat) (message : String) : Site := ⟨position, true, message⟩

def locate? (tokens : List Token) (s : Site) : Option Violation :=
  tokens[s.position]?.map fun t =>
    if s.behind then .atEnd t s.message else .atStart t s.message

end Site

namespace Rule

def id (r : Rule) : String := r.metadata.id

def isRecommended (r : Rule) : Bool := r.metadata.recommended

def run (r : Rule) (u : SourceUnit) (options : Options) :
    Except Word.Overflow (List Violation) :=
  match r.overflow? u options with
  | some e => .error e
  | none => .ok (r.check u options)

theorem check_of_run {r : Rule} {u : SourceUnit} {options : Options} {found : List Violation}
    (h : r.run u options = .ok found) : r.check u options = found := by
  rw [run] at h
  split at h
  · cases h
  · exact Except.ok.inj h

def ofRun (metadata : RuleMetadata)
    (run : SourceUnit → Options → Except Word.Overflow (List Violation)) : Rule where
  metadata := metadata
  check u options :=
    match run u options with
    | .ok found => found
    | .error _ => []
  overflow? u options :=
    match run u options with
    | .ok _ => none
    | .error e => some e

theorem run_ofRun (metadata : RuleMetadata)
    (run : SourceUnit → Options → Except Word.Overflow (List Violation)) (u : SourceUnit)
    (options : Options) : (ofRun metadata run).run u options = run u options := by
  cases hRun : run u options <;> simp only [Rule.run, ofRun, hRun]

def onCode (metadata : RuleMetadata) (sites : Code → Options → List Site) : Rule where
  metadata := metadata
  check u options :=
    let tokens := u.significantTokens
    (sites u.code options).filterMap (Site.locate? tokens)

end Rule

end RuleScout
