/-!
# Quoting in TOML

A text is written in the first of these forms that needs no escapes: between double quotes,
between single quotes, and on lines of its own between three quotes of either kind. Only if
none does, escapes are used. A key is written without quotes if it can be.
-/

set_option autoImplicit false

namespace RuleScout.Toml

def longestRun (x : Char) (current : Nat) : List Char → Nat
  | [] => current
  | c :: cs =>
    if c = x then longestRun x (current + 1) cs else max current (longestRun x 0 cs)

/-- Control characters that no form can hold as they are. -/
def isControl (c : Char) : Bool :=
  (c.toNat < 0x20 && c ≠ '\t' && c ≠ '\n') || c.toNat = 0x7F

inductive Form where
  | basic
  | literal
  | multilineBasic
  | multilineLiteral
  deriving DecidableEq, Repr

def Form.isMultiline : Form → Bool
  | .multilineBasic | .multilineLiteral => true
  | _ => false

def Form.quotes : Form → List Char
  | .basic => ['"']
  | .literal => ['\'']
  | .multilineBasic => ['"', '"', '"']
  | .multilineLiteral => ['\'', '\'', '\'']

def fits (cs : List Char) (f : Form) : Bool :=
  let room := if f.isMultiline then 2 else 0
  let onOneLine := f.isMultiline || !cs.contains '\n'
  !cs.any isControl && onOneLine &&
    match f with
    | .basic | .multilineBasic => !cs.contains '\\' && longestRun '"' 0 cs ≤ room
    | .literal | .multilineLiteral => longestRun '\'' 0 cs ≤ room

def form (cs : List Char) : Form :=
  match [Form.basic, .literal, .multilineBasic, .multilineLiteral].find? (fits cs) with
  | some f => f
  | none => if cs.contains '\n' then .multilineBasic else .basic

def hexDigit (n : Nat) : Char := "0123456789ABCDEF".toList[n]?.getD '0'

def escapeControl (c : Char) : List Char :=
  match c with
  | '\x08' => ['\\', 'b']
  | '\t' => ['\\', 't']
  | '\n' => ['\\', 'n']
  | '\x0c' => ['\\', 'f']
  | '\r' => ['\\', 'r']
  | c => "\\u00".toList ++ [hexDigit (c.toNat / 16), hexDigit (c.toNat % 16)]

/-- Escapes what a basic string cannot hold. A quote is escaped when it would be one too many
in a row; `room` are allowed, and `run` stand just before. -/
def escaped (multiline : Bool) (room run : Nat) : List Char → List Char
  | [] => []
  | c :: cs =>
    if c = '"' then
      if room < run + 1 then '\\' :: '"' :: escaped multiline room 0 cs
      else '"' :: escaped multiline room (run + 1) cs
    else if c = '\\' then '\\' :: '\\' :: escaped multiline room 0 cs
    else if c = '\n' && multiline then '\n' :: escaped multiline room 0 cs
    else if c.toNat < 0x20 || c.toNat = 0x7F then escapeControl c ++ escaped multiline room 0 cs
    else c :: escaped multiline room 0 cs

/-- A text in a form. A line feed follows the opening quotes if the text has several lines. -/
def inForm (f : Form) (cs : List Char) : List Char :=
  let opening := f.quotes ++ (if f.isMultiline && cs.contains '\n' then ['\n'] else [])
  let body :=
    match f with
    | .basic => escaped false 0 0 cs
    | .multilineBasic => escaped true 2 0 cs
    | .literal | .multilineLiteral => cs
  opening ++ body ++ f.quotes

def quoted (s : String) : String := String.ofList (inForm (form s.toList) s.toList)

def isBareKeyChar (c : Char) : Bool := c.isAlphanum || c = '_' || c = '-'

def isBareKey (cs : List Char) : Bool := !cs.isEmpty && cs.all isBareKeyChar

def key (s : String) : String :=
  let cs := s.toList
  if isBareKey cs then s
  else if fits cs .basic then String.ofList (inForm .basic cs)
  else if fits cs .literal then String.ofList (inForm .literal cs)
  else String.ofList (inForm .basic cs)

end RuleScout.Toml
