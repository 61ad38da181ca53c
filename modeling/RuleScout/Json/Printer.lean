import RuleScout.Value
import RuleScout.Number.Layout

/-!
# Writing JSON

`compact` puts no space anywhere; `pretty` gives every item and field a line of its own,
indented by two spaces a level, except that empty containers stay closed up.
-/

set_option autoImplicit false

namespace RuleScout.Json

def hexChar (n : Nat) : Char := "0123456789abcdef".toList[n]?.getD '0'

def escapeChar (c : Char) : List Char :=
  match c with
  | '"' => ['\\', '"']
  | '\\' => ['\\', '\\']
  | '\x08' => ['\\', 'b']
  | '\x0c' => ['\\', 'f']
  | '\n' => ['\\', 'n']
  | '\r' => ['\\', 'r']
  | '\t' => ['\\', 't']
  | c =>
    if c.toNat < 0x20 then "\\u00".toList ++ [hexChar (c.toNat / 16), hexChar (c.toNat % 16)]
    else [c]

def quote (s : String) : String := String.ofList ('"' :: s.toList.flatMap escapeChar ++ ['"'])

mutual

def compact : Value → String
  | .null => "null"
  | .bool b => if b then "true" else "false"
  | .int n => toString n
  | .float x => x.scientific
  | .string s => quote s
  | .array vs => "[" ++ ",".intercalate (compactItems vs) ++ "]"
  | .object fs => "\x7b" ++ ",".intercalate (compactFields fs) ++ "\x7d"

def compactItems : List Value → List String
  | [] => []
  | v :: vs => compact v :: compactItems vs

def compactFields : List (String × Value) → List String
  | [] => []
  | (k, v) :: fs => (quote k ++ ":" ++ compact v) :: compactFields fs

end

def indentUnit : String := "  "

def indent (depth : Nat) : String := String.join (List.replicate depth indentUnit)

def block (depth : Nat) (opening closing : String) (items : List String) : String :=
  match items with
  | [] => opening ++ closing
  | items =>
    opening ++ "\n" ++ ",\n".intercalate (items.map (indent (depth + 1) ++ ·)) ++ "\n" ++
      indent depth ++ closing

mutual

def prettyAt (depth : Nat) : Value → String
  | .null => "null"
  | .bool b => if b then "true" else "false"
  | .int n => toString n
  | .float x => x.scientific
  | .string s => quote s
  | .array vs => block depth "[" "]" (prettyItems (depth + 1) vs)
  | .object fs => block depth "\x7b" "\x7d" (prettyFields (depth + 1) fs)

def prettyItems (depth : Nat) : List Value → List String
  | [] => []
  | v :: vs => prettyAt depth v :: prettyItems depth vs

def prettyFields (depth : Nat) : List (String × Value) → List String
  | [] => []
  | (k, v) :: fs => (quote k ++ ": " ++ prettyAt depth v) :: prettyFields depth fs

end

def pretty (v : Value) : String := prettyAt 0 v

end RuleScout.Json
