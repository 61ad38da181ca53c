import RuleScout.Config.Format
import RuleScout.Files.Selection

/-!
# Finding and loading configurations

Where no configuration file is named, the nearest one counts: the directory itself is searched
first, then those above it, and in each the file names are tried in one fixed order.
-/

set_option autoImplicit false

namespace RuleScout

/-- The names of configuration files, in the order in which they are tried. -/
def configFileNames : List String :=
  [".lintseedrc.json", ".lintseedrc.toml", ".lintseedrc.yaml", ".lintseedrc.yml"]

namespace FileTree

def configIn? (t : FileTree) (l : Location) : Option Location :=
  (configFileNames.map fun name => l ++ [name]).find? fun file => t.isFile file.toPath

def nearestConfig? (t : FileTree) (start : Location) : Option Location :=
  start.ascending.findSome? t.configIn?

end FileTree

namespace Project

def discoverConfig (p : Project) (start : String) : Except Failure (Option String) :=
  match p.tree.resolve (p.absolute start) with
  | .error _ => .error .invalidPath
  | .ok l => .ok ((p.tree.nearestConfig? l).map Location.toPath)

variable [TextFormats]

/-- Loads a configuration file; its name tells its format. -/
def loadConfigFile (p : Project) (path : String) : Except Failure Config := do
  match Format.ofPath? path with
  | none => .error (.unknownFormat path)
  | some format =>
    match p.tree.read (p.absolute path) with
    | .error fault => .error (.io path fault.message)
    | .ok text =>
      match TextFormats.parse? format text with
      | some c => .ok c
      | none => .error (.unloadableConfig format.label path)

/-- Loads the named configuration, or else the one in force, or else the default. -/
def loadConfig (p : Project) (named : Option String) (start : String) : Except Failure Config :=
  match named with
  | some path =>
    if p.tree.isPresent (p.absolute path) then p.loadConfigFile path
    else .error (.missingConfig path)
  | none => do
    match ← p.discoverConfig start with
    | some path => p.loadConfigFile path
    | none => return {}

end Project

end RuleScout
