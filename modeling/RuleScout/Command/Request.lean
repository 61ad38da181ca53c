import RuleScout.Command.Option
import RuleScout.Config.Format

/-!
# What a command line asks for

The commands and their options. The options that hold for every command may stand at any
level; what the innermost level says counts.
-/

set_option autoImplicit false

namespace RuleScout

inductive ReportStyle where
  | human
  | json
  | compact
  | github
  deriving DecidableEq, Repr

def ReportStyle.ofName? (name : String) : Option ReportStyle :=
  [("human", human), ("json", json), ("compact", compact), ("github", github)].lookup name

def Format.ofName? (name : String) : Option Format :=
  [("json", json), ("yaml", yaml), ("toml", toml)].lookup name

structure InitOptions where
  patterns : List String := []
  format : Format := .json
  output : Option String := none
  force : Bool := false
  extendRecommended : Bool := false
  timeout : Option Nat := none
  explain : Bool := false
  deriving DecidableEq, Repr

inductive Command where
  | init (options : InitOptions)
  | lint (paths : List String) (style : ReportStyle)
  | listRules (detailed : Bool) (category : Option String)
  | explainRule (id : String)
  | printSchema
  | showConfig (format : Format)
  | version (detailed : Bool)
  deriving DecidableEq, Repr

structure GlobalOptions where
  config : Option String := none
  noColor : Bool := false
  deriving DecidableEq, Repr

inductive Request where
  | help
  | version
  | completion (shell : String)
  | run (command : Command) (options : GlobalOptions)
  deriving DecidableEq, Repr

/-! ## Values of options -/

def isText (value : String) : Bool := value ≠ ""

def word? (value : String) : Option Nat :=
  let digits :=
    match value.toList with
    | '+' :: digits => digits
    | digits => digits
  (Number.natOf? 10 digits).filter (· < Word.count)

def shells : List String := ["bash", "elvish", "fish", "powershell", "zsh"]

/-! ## Levels -/

def globalOptions : List OptionSpec :=
  [⟨"config", some 'c', .value isText⟩, ⟨"verbose", some 'v', .count⟩,
    ⟨"no-color", none, .flag⟩, ⟨"threads", some 'j', .value fun v => (word? v).isSome⟩,
    ⟨"help", some 'h', .request⟩]

def configFormat : OptionSpec := ⟨"format", none, .value fun v => (Format.ofName? v).isSome⟩

def reportStyle : OptionSpec :=
  ⟨"format", some 'f', .value fun v => (ReportStyle.ofName? v).isSome⟩

def detailedFlag : OptionSpec := ⟨"detailed", none, .flag⟩

namespace Level

def top : Level where
  options := globalOptions ++
    [⟨"version", some 'V', .request⟩,
      ⟨"generate-completion", none, .value fun v => v ∈ shells⟩]
  commands := ["init", "lint", "check", "rules", "config", "version", "ver", "help"]

def init : Level where
  options := globalOptions ++
    [configFormat, ⟨"output", some 'o', .value isText⟩, ⟨"force", none, .flag⟩,
      ⟨"extend-recommended", none, .flag⟩, ⟨"no-progress", none, .flag⟩,
      ⟨"timeout", none, .value fun v => (word? v).isSome⟩, ⟨"explain", none, .flag⟩]
  room := none

def lint : Level where
  options := globalOptions ++ [reportStyle]
  room := none

def rules : Level where
  options := globalOptions ++ [detailedFlag, ⟨"category", none, .value fun _ => true⟩]
  commands := ["list", "explain", "help"]

def config : Level where
  options := globalOptions
  commands := ["schema", "show", "help"]

def version : Level where
  options := globalOptions ++ [detailedFlag]

def plain (words : Nat) : Level where
  options := globalOptions
  room := some words

def configShow : Level where
  options := globalOptions ++ [configFormat]

end Level

/-! ## Reading a command line -/

namespace GlobalOptions

def inner (outer : GlobalOptions) (a : Arguments) : GlobalOptions where
  config := a.value? "config" <|> outer.config
  noColor := outer.noColor || a.has "no-color"

end GlobalOptions

namespace Arguments

def format (a : Arguments) : Format := ((a.value? "format").bind Format.ofName?).getD .json

def style (a : Arguments) : ReportStyle :=
  ((a.value? "format").bind ReportStyle.ofName?).getD .human

def initOptions (a : Arguments) : InitOptions where
  patterns := a.words
  format := a.format
  output := a.value? "output"
  force := a.has "force"
  extendRecommended := a.has "extend-recommended"
  timeout := (a.value? "timeout").bind word?
  explain := a.has "explain"

end Arguments

namespace Request

def ofOption (name : String) : Request := if name = "version" then .version else .help

def last (l : Level) (outer : GlobalOptions) (rest : List String)
    (command : Arguments → Except UsageFault Command) : Except UsageFault Request := do
  match ← l.read rest with
  | .complete a => return .run (← command a) (outer.inner a)
  | .command _ name _ => .error (.unknownCommand name)
  | .request name => return ofOption name

/-- Help on a command: the names lead down from the level. -/
def helpOn (names : List String) (known : List (List String)) : Except UsageFault Request :=
  if names ∈ known then .ok .help
  else .error (.unknownCommand (names.getLast?.getD ""))

def ruleCommands : List (List String) := [[], ["list"], ["explain"], ["help"]]

def configCommands : List (List String) := [[], ["schema"], ["show"], ["help"]]

def topCommands : List (List String) :=
  [[], ["init"], ["lint"], ["check"], ["version"], ["ver"], ["help"]] ++
    ruleCommands.map ("rules" :: ·) ++ configCommands.map ("config" :: ·)

def parseRules (outer : GlobalOptions) (rest : List String) : Except UsageFault Request := do
  match ← Level.rules.read rest with
  | .request name => return ofOption name
  | .complete a => return .run (list a) (outer.inner a)
  | .command _ "help" rest => helpOn rest ruleCommands
  | .command a "list" rest => last (.plain 0) (outer.inner a) rest fun _ => .ok (list a)
  | .command a _ rest =>
    last (.plain 1) (outer.inner a) rest fun b =>
      match b.words with
      | id :: _ => .ok (.explainRule id)
      | [] => .error (.missingWord "RULE_ID")
where
  list (a : Arguments) : Command := .listRules (a.has "detailed") (a.value? "category")

def parseConfig (outer : GlobalOptions) (rest : List String) : Except UsageFault Request := do
  match ← Level.config.read rest with
  | .request name => return ofOption name
  | .complete _ => .error .missingCommand
  | .command _ "help" rest => helpOn rest configCommands
  | .command a "schema" rest => last (.plain 0) (outer.inner a) rest fun _ => .ok .printSchema
  | .command a _ rest =>
    last .configShow (outer.inner a) rest fun b => .ok (.showConfig b.format)

def parseCommand (outer : GlobalOptions) (name : String) (rest : List String) :
    Except UsageFault Request :=
  match name with
  | "init" => last .init outer rest fun a => .ok (.init a.initOptions)
  | "lint" | "check" => last .lint outer rest fun a => .ok (.lint a.words a.style)
  | "rules" => parseRules outer rest
  | "config" => parseConfig outer rest
  | "version" | "ver" => last .version outer rest fun a => .ok (.version (a.has "detailed"))
  | "help" => helpOn rest topCommands
  | other => .error (.unknownCommand other)

/-- Takes the whole command line. A script for a shell comes before any command. -/
def parse (arguments : List String) : Except UsageFault Request := do
  match ← Level.top.read arguments with
  | .request name => return ofOption name
  | .complete a => return (completed? a).getD .help
  | .command a name rest =>
    match ← parseCommand (({} : GlobalOptions).inner a) name rest, completed? a with
    | .run .., some script => return script
    | request, _ => return request
where
  completed? (a : Arguments) : Option Request :=
    (a.value? "generate-completion").map .completion

end Request

end RuleScout
