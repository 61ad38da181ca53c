import RuleScout.Command.Init
import RuleScout.Command.Lint
import RuleScout.Command.Listing
import RuleScout.Config.Schema
import RuleScout.Rule.Builtin

/-!
# Running commands

A command is a function of the project, the rule catalog and its options: it answers the
effect that it has.
-/

set_option autoImplicit false

namespace RuleScout

def versionNumber : String := "0.1.0"

def programName : String := "lintseed"

def versionLines (catalog : Catalog) (detailed : Bool) : List String :=
  if detailed then
    [programName ++ " " ++ versionNumber, "Build information:",
      s!"  Built-in rules: {catalog.size}"]
  else [versionNumber]

variable [PathSearch] [TextFormats] in
/-- Runs a command. `timer` says when a given time is over. -/
def Command.run (command : Command) (options : GlobalOptions) (ink : Ink) (catalog : Catalog)
    (p : Project) (timer : Cancellation) : Effect :=
  let named := options.config
  match command with
  | .init o => .ofInit p catalog ink o (p.discover catalog named o timer)
  | .lint paths style =>
    match p.lintOverflow? catalog named paths with
    | some e => .abort p.tree e
    | none => .ofLint p style ink (p.lint catalog named paths)
  | .listRules detailed category => .print p.tree (linesText (catalog.listing detailed category))
  | .explainRule id => .print p.tree (linesText (catalog.explanation id))
  | .printSchema => .print p.tree (linesText [Json.pretty Schema.config])
  | .showConfig format =>
    .ofExcept p.tree (p.resolveConfig catalog named >>= TextFormats.render format)
  | .version detailed => .print p.tree (linesText (versionLines catalog detailed))

/-! ## Texts about the program itself -/

def usageLines : List String :=
  [programName ++ ": discover a lint configuration that fits your code", "",
    "Usage: " ++ programName ++ " [OPTIONS] [COMMAND]", "",
    "Commands:",
    "  init [PATTERNS]...       Discover a rule configuration from existing source files",
    "  lint [PATHS]...          Lint files with the current configuration",
    "  rules [list]             List all available rules",
    "  rules explain <RULE_ID>  Show detailed information about a specific rule",
    "  config schema            Print the JSON Schema of configuration files",
    "  config show              Show current configuration",
    "  version                  Show version information", "",
    "Options:",
    "  -c, --config <CONFIG>    Path to configuration file (.lintseedrc.json/.yaml/.toml)",
    "  -v, --verbose            Verbose output",
    "      --no-color           Disable colored output",
    "  -j, --threads <THREADS>  Number of threads (default: number of CPU cores)",
    "  -h, --help               Print help",
    "  -V, --version            Print version"]

def commandNames : String := "init lint rules config version help"

def completionLine (shell : String) : String :=
  match shell with
  | "bash" => s!"complete -W '{commandNames}' {programName}"
  | "zsh" => s!"compdef '_arguments \"1:command:({commandNames})\"' {programName}"
  | "fish" => s!"complete -c {programName} -f -a '{commandNames}'"
  | "powershell" =>
    s!"Register-ArgumentCompleter -Native -CommandName {programName} -ScriptBlock " ++
      "\x7b -split '" ++ commandNames ++ "' \x7d"
  | _ =>
    s!"set edit:completion:arg-completer[{programName}] = " ++
      "\x7b|@words| put " ++ commandNames ++ " \x7d"

variable [PathSearch] [TextFormats] in
def Request.effect (request : Request) (coloured : Bool) (catalog : Catalog) (p : Project)
    (timer : Cancellation) : Effect :=
  match request with
  | .help => .print p.tree (linesText usageLines)
  | .version => .print p.tree (linesText [programName ++ " " ++ versionNumber])
  | .completion shell => .print p.tree (linesText [completionLine shell])
  | .run command options =>
    command.run options ⟨coloured && !options.noColor⟩ catalog p timer

end RuleScout
