import RuleScout.Number.Reading

/-!
# Reading quoted TOML texts

Every reader starts behind the opening quotes and answers the text and what is left behind the
closing ones. Control characters must be escaped, and a carriage return may only stand in
front of a line feed, with which it reads as one break.
-/

set_option autoImplicit false

namespace RuleScout.Toml

def isTextChar (c : Char) : Bool := c = '\t' || (0x20 ≤ c.toNat && c.toNat ≠ 0x7F)

def simpleEscape? (c : Char) : Option Char :=
  [('b', '\x08'), ('t', '\t'), ('n', '\n'), ('f', '\x0c'), ('r', '\r'), ('e', '\x1b'), ('"', '"'),
    ('\\', '\\')].lookup c

def escapeWidth? (c : Char) : Option Nat := [('x', 2), ('u', 4), ('U', 8)].lookup c

def escape? (cs : List Char) : Option (Char × List Char) :=
  match cs with
  | [] => none
  | c :: cs =>
    match simpleEscape? c, escapeWidth? c with
    | some x, _ => some (x, cs)
    | none, some width =>
      if cs.length < width then none
      else
        (Number.natOf? 16 (cs.take width)).bind fun n =>
          if n.isValidChar then some (Char.ofNat n, cs.drop width) else none
    | none, none => none

def isSpace (c : Char) : Bool := c = ' ' || c = '\t'

def break? (cs : List Char) : Option (List Char) :=
  match cs with
  | '\n' :: cs => some cs
  | '\r' :: '\n' :: cs => some cs
  | _ => none

/-- A first break in a text of several lines does not count. -/
def skipBreak (cs : List Char) : List Char := (break? cs).getD cs

def skipLines : Nat → List Char → List Char
  | 0, cs => cs
  | fuel + 1, cs =>
    let cs := cs.dropWhile isSpace
    match break? cs with
    | some cs => skipLines fuel cs
    | none => cs

def finish (acc rest : List Char) : Option (String × List Char) :=
  some (String.ofList acc.reverse, rest)

def basic : Nat → List Char → List Char → Option (String × List Char)
  | 0, _, _ => none
  | fuel + 1, acc, cs =>
    match cs with
    | [] => none
    | '"' :: cs => finish acc cs
    | '\\' :: cs =>
      match escape? cs with
      | some (c, cs) => basic fuel (c :: acc) cs
      | none => none
    | c :: cs => if isTextChar c then basic fuel (c :: acc) cs else none

def literal : Nat → List Char → List Char → Option (String × List Char)
  | 0, _, _ => none
  | fuel + 1, acc, cs =>
    match cs with
    | [] => none
    | '\'' :: cs => finish acc cs
    | c :: cs => if isTextChar c then literal fuel (c :: acc) cs else none

/-- The text of several lines between three quotes each. Up to two quotes may stand right in
front of the closing ones. -/
def multiline (quote : Char) : Nat → List Char → List Char → Option (String × List Char)
  | 0, _, _ => none
  | fuel + 1, acc, cs =>
    match cs with
    | [] => none
    | c :: rest =>
      if c = quote then
        let run := min 5 (cs.takeWhile (· = quote)).length
        if 3 ≤ run then finish (List.replicate (run - 3) quote ++ acc) (cs.drop run)
        else multiline quote fuel (List.replicate run quote ++ acc) (cs.drop run)
      else
        match break? cs with
        | some rest => multiline quote fuel ('\n' :: acc) rest
        | none =>
          if c = '\\' && quote = '"' then
            match break? (rest.dropWhile isSpace) with
            | some below => multiline quote fuel acc (skipLines fuel below)
            | none =>
              match escape? rest with
              | some (x, rest) => multiline quote fuel (x :: acc) rest
              | none => none
          else if isTextChar c then multiline quote fuel (c :: acc) rest
          else none

def unquote? (fuel : Nat) (cs : List Char) : Option (String × List Char) :=
  match cs with
  | '"' :: '"' :: '"' :: cs => multiline '"' fuel [] (skipBreak cs)
  | '\'' :: '\'' :: '\'' :: cs => multiline '\'' fuel [] (skipBreak cs)
  | '"' :: cs => basic fuel [] cs
  | '\'' :: cs => literal fuel [] cs
  | _ => none

end RuleScout.Toml
