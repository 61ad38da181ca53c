import RuleScout.Command.Effect
import RuleScout.Command.Ink
import RuleScout.Command.Request
import RuleScout.Linter

/-!
# Reports

The findings on a number of files, printed for people, for programs, in one line, or as the
annotations of a build.
-/

set_option autoImplicit false

namespace RuleScout

structure LintReport where
  files : Nat
  findings : List Finding
  deriving DecidableEq, Repr

namespace LintReport

def errors (r : LintReport) : Nat := r.findings.countP (·.isError)

def total (r : LintReport) : Nat := r.findings.length

def warnings (r : LintReport) : Nat := r.total - r.errors

def verdict (r : LintReport) : Verdict := if r.errors > 0 then .foundErrors else .passed

/-! ## For people -/

def padStart (width : Nat) (text : String) : String :=
  "".pushn ' ' (width - text.length) ++ text

def padEnd (width : Nat) (text : String) : String :=
  text ++ "".pushn ' ' (width - text.length)

def severityText (ink : Ink) (f : Finding) : String :=
  if f.isError then ink.paint .red (padEnd 7 "error") else ink.paint .yellow (padEnd 7 "warning")

def findingLine (ink : Ink) (f : Finding) : String :=
  "  " ++ padStart 4 (toString f.line) ++ ":" ++ padEnd 3 (toString f.column) ++ " " ++
    severityText ink f ++ " " ++ f.message ++ "  " ++ ink.paint .dimmed f.rule

/-- The lines of findings, with a heading wherever the file changes. -/
def findingLines (ink : Ink) (current : Option String) : List Finding → List String
  | [] => []
  | f :: fs =>
    let heading :=
      if current.any (Path.same f.path) then [] else ["", ink.paint .underlined f.path]
    heading ++ findingLine ink f :: findingLines ink (some f.path) fs

def countLine (ink : Ink) (style : Style) (label : String) (count : Nat) : List String :=
  if count = 0 then []
  else ["    " ++ label ++ ": " ++ ink.paint style (toString count)]

def summaryLines (ink : Ink) (r : LintReport) : List String :=
  ["", ink.paint .bold "Summary:", s!"  Files checked: {r.files}"] ++
    if r.total = 0 then ["  " ++ ink.paint .green "✅" ++ " No issues found"]
    else
      "  Issues found:" :: countLine ink .red "Errors" r.errors ++
        countLine ink .yellow "Warnings" r.warnings

/-! ## For programs -/

def encode (r : LintReport) : Value :=
  .object
    [("files_checked", .int r.files), ("issues", .array (r.findings.map (·.encode))),
      ("summary", .object
        [("errors", .int r.errors), ("warnings", .int r.warnings), ("total", .int r.total)])]

def compactLine (r : LintReport) : String :=
  if r.total = 0 then s!"lintseed: {r.files} files checked, no issues"
  else
    s!"lintseed: {r.files} files, {r.total} issues ({r.errors} errors, {r.warnings} warnings)"

def annotation (f : Finding) : String :=
  let level := if f.isError then "error" else "warning"
  s!"::{level} file={f.path},line={f.line},col={f.column}::{f.message} ({f.rule})"

def text (r : LintReport) (style : ReportStyle) (ink : Ink) : String :=
  match style with
  | .human => linesText (findingLines ink none r.findings ++ r.summaryLines ink)
  | .json => linesText [Json.pretty r.encode]
  | .compact => linesText [r.compactLine]
  | .github => linesText (r.findings.map annotation)

end LintReport

end RuleScout
