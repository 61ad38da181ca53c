import RuleScout.Config.Codec
import RuleScout.Files.Pattern

/-!
# Failures

What can go wrong in a run. Failures that concern one rule or one file only are recoverable;
all others end the run.
-/

set_option autoImplicit false

namespace RuleScout

inductive FailureKind where
  | parse
  | emptyCorpus
  | config
  | rule
  | io
  | cancelled
  | internal
  deriving DecidableEq, Repr

inductive PatternUse where
  | glob
  | exclude
  deriving DecidableEq, Repr

def PatternUse.name : PatternUse → String
  | .glob => "glob"
  | .exclude => "exclude"

/-- What goes wrong. The text of a fault inside a configuration file is not part of a
failure. -/
inductive Failure where
  | unparsable (path : String) (line column : Nat) (message : String)
  | noFiles (patterns : List String)
  | config (message : String)
  | invalidConfig (format : String)
  | unloadableConfig (format path : String)
  | unwritableConfig (format : String)
  | missingConfig (path : String)
  | unknownFormat (path : String)
  | existingConfig (path : String)
  | badPattern (use : PatternUse) (pattern : String) (fault : PatternFault)
  | nothingToLint
  | invalidPath
  | rule (id message : String)
  | io (path message : String)
  | cancelled (completed total : Nat)
  | internal (message : String)
  deriving DecidableEq, Repr

namespace Failure

def kind : Failure → FailureKind
  | .unparsable .. => .parse
  | .noFiles _ => .emptyCorpus
  | .config _ | .invalidConfig _ | .unloadableConfig .. | .unwritableConfig _ | .missingConfig _
  | .unknownFormat _ | .existingConfig _ | .badPattern .. | .nothingToLint | .invalidPath =>
    .config
  | .rule .. => .rule
  | .io .. => .io
  | .cancelled .. => .cancelled
  | .internal _ => .internal

def isRecoverable (f : Failure) : Bool :=
  match f.kind with
  | .rule | .io => true
  | _ => false

def configError (message : String) : String := "Configuration error: " ++ message

def message : Failure → String
  | .unparsable path line column message =>
    "Automatic configuration failed. No files were able to be parsed " ++
      s!"({path}:{line}:{column}: {message})"
  | .noFiles patterns =>
    "Automatic configuration failed. No files matched the patterns: " ++ " ".intercalate patterns
  | .config message => configError message
  | .invalidConfig format => "Invalid " ++ format ++ " config"
  | .unloadableConfig format path => "Failed to load " ++ format ++ " config from '" ++ path ++ "'"
  | .unwritableConfig format => "Failed to serialize " ++ format ++ " config"
  | .missingConfig path => configError s!"Config file not found: {path}"
  | .unknownFormat path =>
    configError s!"Unsupported config file '{path}' (expected .json, .yaml, .yml or .toml)"
  | .existingConfig path =>
    configError s!"Configuration file '{path}' already exists. Use --force to overwrite."
  | .badPattern use pattern fault =>
    configError (s!"Invalid {use.name} pattern '{pattern}': Pattern syntax error near position " ++
      s!"{fault.position}: {fault.flaw.message}")
  | .nothingToLint =>
    configError "No files found to lint. Check the paths and the include/exclude settings."
  | .invalidPath => "Invalid path"
  | .rule id message => "Rule error in '" ++ id ++ "': " ++ message
  | .io path message => "IO error for path '" ++ path ++ "': " ++ message
  | .cancelled completed total =>
    s!"Automatic configuration cancelled after {completed} of {total} trials"
  | .internal message => "Internal error: " ++ message

end Failure

end RuleScout
