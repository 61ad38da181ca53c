/-!
# Reading the arguments of a command

A command has a table of options, and after them it takes words or the name of a further
command. One reader goes through the arguments from left to right and stops at the first
fault. An option may be given as `--name value`, `--name=value`, `-n value`, `-n=value` or
`-nvalue`, and short options without values may share one dash. After `--` there are words
only.
-/

set_option autoImplicit false

namespace RuleScout

inductive UsageFault where
  | unknownOption (argument : String)
  | repeatedOption (name : String)
  | missingValue (name : String)
  | unexpectedValue (name : String)
  | badValue (name value : String)
  | unexpectedWord (word : String)
  | unknownCommand (word : String)
  | missingCommand
  | missingWord (meaning : String)
  deriving DecidableEq, Repr

def UsageFault.message : UsageFault → String
  | .unknownOption argument => "unexpected argument '" ++ argument ++ "' found"
  | .repeatedOption name => "the argument '--" ++ name ++ "' cannot be used multiple times"
  | .missingValue name => "a value is required for '--" ++ name ++ "' but none was supplied"
  | .unexpectedValue name => "unexpected value for '--" ++ name ++ "' found"
  | .badValue name value => "invalid value '" ++ value ++ "' for '--" ++ name ++ "'"
  | .unexpectedWord word => "unexpected argument '" ++ word ++ "' found"
  | .unknownCommand word => "unrecognized subcommand '" ++ word ++ "'"
  | .missingCommand => "a subcommand is required but one was not provided"
  | .missingWord meaning => "the argument <" ++ meaning ++ "> is required"

/-- What an option is for. A request ends the reading at once. -/
inductive OptionKind where
  | flag
  | count
  | value (accepts : String → Bool)
  | request

structure OptionSpec where
  name : String
  short : Option Char := none
  kind : OptionKind := .flag

structure Arguments where
  options : List (String × String) := []
  words : List String := []
  deriving DecidableEq, Repr

namespace Arguments

def value? (a : Arguments) (name : String) : Option String := a.options.lookup name

def has (a : Arguments) (name : String) : Bool := (a.value? name).isSome

end Arguments

/-- What a command takes: options, so many words, and further commands by name. -/
structure Level where
  options : List OptionSpec
  room : Option Nat := some 0
  commands : List String := []

inductive Reading where
  | complete (a : Arguments)
  | command (a : Arguments) (name : String) (rest : List String)
  | request (name : String)

/-- Where the reader stands between two arguments: ready, with an option that waits for its
value, or at a request. -/
inductive Stance where
  | ready (a : Arguments)
  | waiting (a : Arguments) (o : OptionSpec)
  | asked (name : String)

/-- Whether an argument is an option. A single dash is a word. -/
def isOption (argument : String) : Bool := argument ≠ "-" && argument.startsWith "-"

namespace OptionSpec

def put (o : OptionSpec) (a : Arguments) (value : String) : Except UsageFault Arguments :=
  match o.kind with
  | .count => .ok a
  | .value accepts =>
    if !accepts value then .error (.badValue o.name value)
    else if a.has o.name then .error (.repeatedOption o.name)
    else .ok { a with options := a.options ++ [(o.name, value)] }
  | .flag | .request =>
    if a.has o.name then .error (.repeatedOption o.name)
    else .ok { a with options := a.options ++ [(o.name, value)] }

def take (o : OptionSpec) (a : Arguments) (attached : Option String) :
    Except UsageFault Stance :=
  match o.kind, attached with
  | .value _, some value => (o.put a value).map .ready
  | .value _, none => .ok (.waiting a o)
  | _, some _ => .error (.unexpectedValue o.name)
  | .request, none => .ok (.asked o.name)
  | .flag, none | .count, none => (o.put a "").map .ready

end OptionSpec

namespace Level

def takeLong (l : Level) (a : Arguments) (text : List Char) : Except UsageFault Stance :=
  let name := String.ofList (text.takeWhile (· ≠ '='))
  let attached :=
    match text.dropWhile (· ≠ '=') with
    | _ :: value => some (String.ofList value)
    | [] => none
  match l.options.find? (·.name = name) with
  | some o => o.take a attached
  | none => .error (.unknownOption (String.ofList ('-' :: '-' :: text)))

def takeShort (l : Level) (a : Arguments) : List Char → Except UsageFault Stance
  | [] => .ok (.ready a)
  | c :: cs =>
    match l.options.find? (·.short = some c) with
    | none => .error (.unknownOption (String.ofList ['-', c]))
    | some o =>
      match o.kind with
      | .value _ =>
        match cs with
        | [] => o.take a none
        | '=' :: value => o.take a (some (String.ofList value))
        | value => o.take a (some (String.ofList value))
      | .request => .ok (.asked o.name)
      | .flag | .count => do l.takeShort (← o.put a "") cs

def takeWord (l : Level) (a : Arguments) (word : String) : Except UsageFault Arguments :=
  if l.room.all (a.words.length < ·) then .ok { a with words := a.words ++ [word] }
  else if l.commands.isEmpty then .error (.unexpectedWord word)
  else .error (.unknownCommand word)

def takeWords (l : Level) (a : Arguments) : List String → Except UsageFault Arguments
  | [] => .ok a
  | word :: words => do l.takeWords (← l.takeWord a word) words

def readFrom (l : Level) : Stance → List String → Except UsageFault Reading
  | .asked name, _ => .ok (.request name)
  | .ready a, [] => .ok (.complete a)
  | .waiting _ o, [] => .error (.missingValue o.name)
  | .waiting a o, value :: rest =>
    if isOption value then .error (.missingValue o.name)
    else do l.readFrom (.ready (← o.put a value)) rest
  | .ready a, argument :: rest =>
    if argument = "--" then (l.takeWords a rest).map .complete
    else
      match argument.toList with
      | '-' :: '-' :: text => do l.readFrom (← l.takeLong a text) rest
      | '-' :: c :: cs => do l.readFrom (← l.takeShort a (c :: cs)) rest
      | _ =>
        if argument ∈ l.commands then .ok (.command a argument rest)
        else do l.readFrom (.ready (← l.takeWord a argument)) rest

def read (l : Level) (arguments : List String) : Except UsageFault Reading :=
  l.readFrom (.ready {}) arguments

end Level

end RuleScout
