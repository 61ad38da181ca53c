import RuleScout.Command.Run

/-!
# The program

The files that a command may look at are read into a tree, the command is run on the tree, and
the files that it has changed in the tree are written.
-/

set_option autoImplicit false

namespace RuleScout.Program

/-! ## Reading files into a tree -/

def deepest : Nat := 4096

def entryAt (l : Location) : IO.FS.DirEntry where
  root := Location.toPath l.dropLast
  fileName := l.getLast?.getD ""

def readText (path : String) : IO (Option String) := do
  match ← (IO.FS.readBinFile path).toBaseIO with
  | .ok bytes => return String.fromUTF8? bytes
  | .error _ => return none

/-- Where a link leads. A link that leads nowhere has itself as its target. -/
def linkTarget (path : String) : IO String := do
  match ← (IO.FS.realPath path).toBaseIO with
  | .ok target => return target.toString
  | .error _ => return path

def nodeAt : Nat → Location → IO (Option FileTree)
  | 0, _ => return none
  | fuel + 1, l => do
    let path := l.toPath
    match ← (entryAt l).path.symlinkMetadata.toBaseIO with
    | .error _ => return none
    | .ok info =>
      match info.type with
      | .symlink => return some (.link (← linkTarget path))
      | .dir =>
        let names ← (entryAt l).path.readDir.toBaseIO
        let names := (names.toOption.getD #[]).toList.map (·.fileName)
        let entries ← names.filterMapM fun name => do
          return (← nodeAt fuel (l ++ [name])).map (name, ·)
        return some (.directory entries)
      | .file => return some (.file (← readText path))
      | .other => return some (.file none)

def fetch (t : FileTree) (l : Location) : IO FileTree := do
  match ← nodeAt deepest l with
  | some node => return t.put l node
  | none => return t

/-- Follows a path in the file system and puts what it leads to into a tree. Links on the way
become part of the tree as well. -/
def follow : Nat → FileTree → Location → List String → IO FileTree
  | 0, t, _, _ => return t
  | _ + 1, t, here, [] => fetch t here
  | fuel + 1, t, here, step :: rest => do
    if step = "." then follow fuel t here rest
    else if step = ".." then follow fuel t here.dropLast rest
    else
      let next := here ++ [step]
      match ← (entryAt next).path.symlinkMetadata.toBaseIO with
      | .error _ => return t
      | .ok info =>
        if info.type == .symlink then
          let target ← linkTarget next.toPath
          let t := t.put next (.link target)
          if target = next.toPath then return t
          else follow fuel t [] (FileTree.steps target ++ rest)
        else follow fuel t next rest

mutual

def targets : FileTree → List String
  | .link target => [target]
  | .file _ => []
  | .directory entries => targetsOfEntries entries

def targetsOfEntries : List (String × FileTree) → List String
  | [] => []
  | (_, t) :: rest => targets t ++ targetsOfEntries rest

end

def followAll (t : FileTree) (paths : List String) : IO FileTree :=
  paths.foldlM (fun t path => follow deepest t [] (FileTree.steps path)) t

def configPaths (directory : Location) : List String :=
  directory.ascending.flatMap fun l =>
    configFileNames.map fun name => Location.toPath (l ++ [name])

def fixedPart (pattern : String) : String :=
  let plain (piece : String) : Bool := !piece.toList.any fun c => c = '*' || c = '?' || c = '['
  "/".intercalate ((pattern.splitOn "/").takeWhile plain)

def requestPaths : Request → List String
  | .run command options =>
    options.config.toList ++
      match command with
      | .init o => o.output.toList ++ o.allPatterns.map fixedPart
      | .lint paths _ => paths.map fixedPart
      | _ => []
  | _ => []

/-- The project in the current directory, with everything that a request may look at. Links
that lead out of the directory are followed once. -/
def project (request : Request) : IO Project := do
  let root := (← IO.currentDir).toString
  let inside (path : String) : Bool := (Path.pieces root).isPrefixOf (Path.pieces path)
  let named := (requestPaths request).map (Path.join root)
  let outside := named.filter fun path => !inside path || ".." ∈ Path.pieces path
  let tree ← followAll .empty (root :: configPaths (Path.pieces root) ++ outside)
  return ⟨← followAll tree ((targets tree).filter fun path => !inside path), root⟩

/-! ## Running the program -/

def writeChanges (before after : FileTree) : IO Unit := do
  let known := before.filesBelow "/"
  for (path, text) in after.filesBelow "/" do
    if !known.contains (path, text) then
      if let some text := text then
        IO.FS.writeFile path text

def printFailure (message : String) : IO UInt32 := do
  IO.eprintln s!"{programName} failed: {message}"
  return 1

/-- The moment at which a time is over, counted in reports. The trials are carried out one by one,
with a look at the clock before each of them. -/
def moment (seconds : Nat) (p : Project) (base : Config) (patterns : List String) :
    IO Cancellation := do
  let start ← IO.monoMsNow
  let loading := Corpus.load base.fileSelection p patterns
  match loading.outcome with
  | .error _ => return .never
  | .ok corpus =>
    let registry := Registry.ofCatalog .builtin
    let mut made := loading.reports.length
    for c in registry.candidates do
      if seconds * 1000 ≤ (← IO.monoMsNow) - start then return ⟨some made⟩
      let failing := Trial.firstFailing .builtin base corpus c
      made := made + (Trial.reports corpus.size registry.candidateCount failing).length
    return .never

def timer (request : Request) (p : Project) : IO Cancellation := do
  match request with
  | .run (.init o) options =>
    match o.timeout, o.admits p >>= fun _ => p.loadConfig options.config p.root with
    | some seconds, .ok base => moment seconds p base o.allPatterns
    | _, _ => return .never
  | _ => return .never

def run (request : Request) : IO UInt32 := do
  let coloured := (← IO.getEnv "NO_COLOR").isNone
  let p ← project request
  let effect := request.effect coloured .builtin p (← timer request p)
  match ← (writeChanges p.tree effect.tree).toBaseIO with
  | .error e => printFailure (Failure.io p.root (toString e)).message
  | .ok () =>
    IO.print effect.output
    IO.eprint effect.notes
    match effect.verdict with
    | .failed f => printFailure f.message
    | .aborted e =>
      IO.eprintln s!"{programName} stopped: {e.exact} is too large a number"
      return UInt32.ofNat effect.verdict.status
    | verdict => return UInt32.ofNat verdict.status

end RuleScout.Program

/-- Status 2 means that the command line cannot be understood. -/
def main (arguments : List String) : IO UInt32 := do
  match RuleScout.Request.parse arguments with
  | .error fault =>
    IO.eprintln s!"error: {fault.message}"
    return 2
  | .ok request => RuleScout.Program.run request
