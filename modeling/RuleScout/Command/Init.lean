import RuleScout.Command.Effect
import RuleScout.Command.Ink
import RuleScout.Command.Request
import RuleScout.Config.Search
import RuleScout.Discovery.Session
import RuleScout.Text.Words

/-!
# The init command

A configuration is discovered and written to one file, or printed. Everything that can go
wrong does so before the file is written, so the tree of files changes only if the command
succeeds, and then in that file alone.
-/

set_option autoImplicit false

namespace RuleScout

inductive Target where
  | printed
  | file (path : String)
  deriving DecidableEq, Repr

namespace InitOptions

/-- A dash as the output means that the configuration is printed. -/
def target (o : InitOptions) (p : Project) : Target :=
  match o.output with
  | none => .file (p.absolute o.format.fileName)
  | some path => if Path.same path "-" then .printed else .file path

/-- Whether the target may be used: what is there already is replaced only if that is asked
for. -/
def admits (o : InitOptions) (p : Project) : Except Failure Unit :=
  match o.target p with
  | .printed => .ok ()
  | .file path =>
    if p.tree.isPresent (p.absolute path) && !o.force then .error (.existingConfig path)
    else .ok ()

def allPatterns (o : InitOptions) : List String := o.patterns.flatMap Text.splitWords

/-- When the run is cancelled. No time at all is over at once; `timer` says when any other
time is over. -/
def cancellation (o : InitOptions) (timer : Cancellation) : Cancellation :=
  match o.timeout with
  | none => .never
  | some 0 => ⟨some 0⟩
  | some _ => timer

end InitOptions

namespace Project

variable [PathSearch] [TextFormats] in
def discover (p : Project) (catalog : Catalog) (named : Option String) (o : InitOptions)
    (timer : Cancellation) : Except Failure Outcome := do
  o.admits p
  let base ← p.loadConfig named p.root
  (Session.run catalog base.fileSelection p base o.allPatterns (o.cancellation timer)).outcome

def write (p : Project) (path text : String) : Except Failure FileTree :=
  (p.tree.write (p.absolute path) text).mapError fun fault => .io path fault.message

end Project

def Outcome.configFor (outcome : Outcome) (catalog : Catalog) (o : InitOptions) : Config :=
  if o.extendRecommended then extendFromRecommended outcome.config catalog else outcome.config

def Outcome.explanation (outcome : Outcome) (ink : Ink) : String :=
  let line (d : RuleDecision) : String :=
    "  " ++ (if d.setting.isEnabled then ink.paint .green "✓" else ink.paint .red "✗") ++ " " ++
      d.describe
  linesText (ink.paint .bold "Decisions:" :: outcome.decisions.map line ++ [""])

namespace Effect

/-- Puts the text of a configuration where it goes. `explained` has been printed before. -/
def deliver (p : Project) (ink : Ink) (target : Target) (summary text explained : String) :
    Effect :=
  match target with
  | .printed => { tree := p.tree, output := explained ++ text, notes := linesText [summary] }
  | .file path =>
    match p.write path text with
    | .error f => .fail p.tree f explained
    | .ok tree =>
      let created := ink.paint .green "✅" ++ " Created configuration file: " ++ path
      { tree, output := explained ++ linesText [summary, created] }

variable [TextFormats] in
def ofInit (p : Project) (catalog : Catalog) (ink : Ink) (o : InitOptions) :
    Except Failure Outcome → Effect
  | .error f => .fail p.tree f
  | .ok outcome =>
    let explained := if o.explain then outcome.explanation ink else ""
    match TextFormats.render o.format (outcome.configFor catalog o) with
    | .error f => .fail p.tree f explained
    | .ok text => deliver p ink (o.target p) outcome.summary text explained

end Effect

end RuleScout
