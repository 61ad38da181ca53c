import RuleScout.Json.Number

/-!
# Reading JSON

A strict reader. Fields of an object are kept as they stand in the text, repeated ones
included; what a repetition means is for the caller to say. Containers nest at most
`deepest` levels.
-/

set_option autoImplicit false

namespace RuleScout.Json

def deepest : Nat := 127

def isSpace (c : Char) : Bool := c = ' ' || c = '\t' || c = '\n' || c = '\r'

def skipSpace (cs : List Char) : List Char := cs.dropWhile isSpace

def hexDigit? (c : Char) : Option Nat :=
  if c.isDigit then some (c.toNat - '0'.toNat)
  else if 'a' ≤ c && c ≤ 'f' then some (c.toNat - 'a'.toNat + 10)
  else if 'A' ≤ c && c ≤ 'F' then some (c.toNat - 'A'.toNat + 10)
  else none

def readUnit (cs : List Char) : Option (Nat × List Char) :=
  match cs with
  | a :: b :: c :: d :: rest => do
    let n := (← hexDigit? a) * 4096 + (← hexDigit? b) * 256 + (← hexDigit? c) * 16
    return (n + (← hexDigit? d), rest)
  | _ => none

def isHighSurrogate (n : Nat) : Bool := 0xD800 ≤ n && n < 0xDC00

def isLowSurrogate (n : Nat) : Bool := 0xDC00 ≤ n && n < 0xE000

/-- The character of a `\u` escape, from behind the letter. -/
def readCodePoint (cs : List Char) : Option (Char × List Char) := do
  let (high, cs) ← readUnit cs
  if isLowSurrogate high then none
  else if isHighSurrogate high then
    match cs with
    | '\\' :: 'u' :: cs =>
      let (low, cs) ← readUnit cs
      if isLowSurrogate low then
        return (Char.ofNat (0x10000 + (high - 0xD800) * 0x400 + (low - 0xDC00)), cs)
      else none
    | _ => none
  else return (Char.ofNat high, cs)

def simpleEscape? (c : Char) : Option Char :=
  match c with
  | '"' => some '"'
  | '\\' => some '\\'
  | '/' => some '/'
  | 'b' => some '\x08'
  | 'f' => some '\x0c'
  | 'n' => some '\n'
  | 'r' => some '\r'
  | 't' => some '\t'
  | _ => none

/-- The characters of a string from behind its opening quote, put in front of `acc` in
reverse. -/
def readChars : Nat → List Char → List Char → Option (String × List Char)
  | 0, _, _ => none
  | fuel + 1, acc, cs =>
    match cs with
    | [] => none
    | '"' :: cs => some (String.ofList acc.reverse, cs)
    | '\\' :: 'u' :: cs => do
      let (c, cs) ← readCodePoint cs
      readChars fuel (c :: acc) cs
    | '\\' :: c :: cs => do readChars fuel ((← simpleEscape? c) :: acc) cs
    | c :: cs => if c.toNat < 0x20 then none else readChars fuel (c :: acc) cs

def readString (cs : List Char) : Option (String × List Char) :=
  readChars (cs.length + 1) [] cs

mutual

/-- A value at the front of the text; `room` more containers may be opened. -/
def readValue : Nat → Nat → List Char → Option (Value × List Char)
  | 0, _, _ => none
  | fuel + 1, room, cs =>
    match skipSpace cs with
    | 'n' :: 'u' :: 'l' :: 'l' :: cs => some (.null, cs)
    | 't' :: 'r' :: 'u' :: 'e' :: cs => some (.bool true, cs)
    | 'f' :: 'a' :: 'l' :: 's' :: 'e' :: cs => some (.bool false, cs)
    | '"' :: cs => (readString cs).map fun (s, cs) => (.string s, cs)
    | '[' :: cs =>
      match room with
      | 0 => none
      | room + 1 =>
        match skipSpace cs with
        | ']' :: cs => some (.array [], cs)
        | cs => (readItems fuel room [] cs).map fun (vs, cs) => (.array vs, cs)
    | '\x7b' :: cs =>
      match room with
      | 0 => none
      | room + 1 =>
        match skipSpace cs with
        | '\x7d' :: cs => some (.object [], cs)
        | cs => (readFields fuel room [] cs).map fun (fs, cs) => (.object fs, cs)
    | cs => readNumber cs

def readItems : Nat → Nat → List Value → List Char → Option (List Value × List Char)
  | 0, _, _, _ => none
  | fuel + 1, room, acc, cs => do
    let (v, cs) ← readValue fuel room cs
    match skipSpace cs with
    | ',' :: cs => readItems fuel room (v :: acc) cs
    | ']' :: cs => return ((v :: acc).reverse, cs)
    | _ => none

def readFields : Nat → Nat → List (String × Value) → List Char →
    Option (List (String × Value) × List Char)
  | 0, _, _, _ => none
  | fuel + 1, room, acc, cs =>
    match skipSpace cs with
    | '"' :: cs => do
      let (key, cs) ← readString cs
      match skipSpace cs with
      | ':' :: cs =>
        let (v, cs) ← readValue fuel room cs
        match skipSpace cs with
        | ',' :: cs => readFields fuel room ((key, v) :: acc) cs
        | '\x7d' :: cs => return (((key, v) :: acc).reverse, cs)
        | _ => none
      | _ => none
    | _ => none

end

/-- The value that a text consists of. Each step of the reader takes a character, so twice
the length of the text is fuel enough. -/
def read (text : String) : Option Value :=
  let cs := text.toList
  match readValue (2 * cs.length + 2) deepest cs with
  | some (v, rest) => if (skipSpace rest).isEmpty then some v else none
  | none => none

end RuleScout.Json
