import RuleScout.Text.Blank
import RuleScout.Text.Letter
import RuleScout.Source.Token
import RuleScout.Source.LexError
import RuleScout.Source.Literal
import RuleScout.Source.Template

/-!
# Cutting a text into tokens

`lexeme` looks at the front of the remaining text and answers the kind of the next token and
how many characters follow its first one. `Cursor.tokens` walks over the text, opens a token
at its first character and skips the others, so a token is never empty and the texts of the
tokens make up the whole input.
-/

set_option autoImplicit false

namespace RuleScout

open Text Literal

def keywords : List String :=
  ["async", "await", "break", "case", "catch", "class", "const", "continue", "debugger",
    "default", "delete", "do", "else", "export", "extends", "false", "finally", "for",
    "function", "if", "import", "in", "instanceof", "let", "new", "null", "of", "return",
    "static", "super", "switch", "this", "throw", "true", "try", "typeof", "var", "void",
    "while", "with", "yield"]

def operandKeywords : List String :=
  ["return", "typeof", "instanceof", "in", "of", "new", "delete", "void", "throw", "case",
    "do", "else", "yield", "await"]

/-- Longer ones first, so that the first that fits is the longest that fits. -/
def punctuators : List String :=
  [">>>=", "...", "===", "!==", "**=", "<<=", ">>=", ">>>", "&&=", "||=", "??=", "=>", "==",
    "!=", "<=", ">=", "&&", "||", "??", "?.", "++", "--", "+=", "-=", "*=", "/=", "%=", "&=",
    "|=", "^=", "**", "<<", ">>", "\x7b", "\x7d", "(", ")", "[", "]", ";", ",", "<", ">", "+",
    "-", "*", "/", "%", "&", "|", "^", "!", "~", "?", ":", "=", ".", "@"]

def isNameStart (c : Char) : Bool := isLetter c || c = '_' || c = '$'

def isNamePart (c : Char) : Bool := isLetter c || isNumeral c || c = '_' || c = '$'

def isNumberPart (c : Char) : Bool := c.isAlphanum || c = '_' || c = '.'

def isLineBreak (c : Char) : Bool := c = '\n' || c = '\r'

def regexAllowed (previous : Option Token) : Bool :=
  match previous with
  | none => true
  | some t =>
    match t.kind with
    | .punctuator => t.text ∉ [")", "]", "\x7d", "++", "--"]
    | .keyword => t.text ∈ operandKeywords
    | _ => false

/-- Where the next token starts, and the last token before it that is not trivia. -/
structure Cursor where
  offset : Nat := 0
  line : Nat := 1
  column : Nat := 1
  previous : Option Token := none
  deriving DecidableEq, Repr

namespace Cursor

/-- A carriage return counts as a line break unless a line feed follows it. -/
def advance (cur : Cursor) : List Char → Cursor
  | [] => cur
  | c :: cs =>
    let offset := cur.offset + c.utf8Size
    if c = '\n' || (c = '\r' && cs.head? ≠ some '\n') then
      advance { cur with offset, line := cur.line + 1, column := 1 } cs
    else advance { cur with offset, column := cur.column + 1 } cs

def token (cur : Cursor) (kind : TokenKind) (cs : List Char) : Token where
  kind := kind
  text := String.ofList cs
  start := cur.offset
  line := cur.line
  column := cur.column

def pass (cur : Cursor) (t : Token) : Cursor :=
  let next := cur.advance t.chars
  if t.isTrivia then next else { next with previous := some t }

/-- The kind of the token that starts with `c`, and how many of the characters `cs` after it
belong to it. -/
def lexeme (cur : Cursor) (c : Char) (cs : List Char) : Except LexError (TokenKind × Nat) :=
  let fail (fault : LexFault) : Except LexError (TokenKind × Nat) := .error ⟨fault, cur.offset⟩
  if cur.offset = 0 && c = '#' && cs.head? = some '!' then
    .ok (.lineComment, runLength (· ≠ '\n') cs)
  else if c = '\n' then .ok (.newline, 0)
  else if c = '\r' then .ok (.newline, if cs.head? = some '\n' then 1 else 0)
  else if isSpacing c then
    .ok (.whitespace, runLength (fun d => isSpacing d && !isLineBreak d) cs)
  else if c = '/' && cs.head? = some '/' then
    .ok (.lineComment, runLength (fun d => !isLineBreak d) cs)
  else if c = '/' && cs.head? = some '*' then
    match scanBlockComment cs.tail with
    | some n => .ok (.blockComment, n + 1)
    | none => fail .unterminatedComment
  else if c = '/' && regexAllowed cur.previous then
    match scanRegex cs with
    | some n => .ok (.regex, n)
    | none => fail .unterminatedRegex
  else if c = '"' || c = '\'' then
    match scanString c cs with
    | some n => .ok (.string, n)
    | none => fail .unterminatedString
  else if c = '\x60' then
    (Template.scanLiteral cur.offset cs).map (.template, ·)
  else if c.isDigit || (c = '.' && cs.head?.any Char.isDigit) then
    .ok (.number, runLength isNumberPart cs)
  else if isNameStart c || (c = '#' && cs.head?.any isNameStart) then
    let n := runLength isNamePart cs
    .ok (if String.ofList (c :: cs.take n) ∈ keywords then .keyword else .identifier, n)
  else
    match punctuators.find? fun p => p.toList.isPrefixOf (c :: cs) with
    | some p => .ok (.punctuator, p.length - 1)
    | none => fail (.unexpected c)

/-- The tokens of the text behind the first `skip` characters, which belong to the token
before the cursor. -/
def tokens : Nat → Cursor → List Char → Except LexError (List Token)
  | _, _, [] => .ok []
  | skip + 1, cur, _ :: cs => tokens skip cur cs
  | 0, cur, c :: cs =>
    match cur.lexeme c cs with
    | .error e => .error e
    | .ok (kind, n) =>
      let t := cur.token kind (c :: cs.take n)
      (t :: ·) <$> tokens n (cur.pass t) cs

end Cursor

def lex (text : String) : Except LexError (List Token) :=
  Cursor.tokens 0 {} text.toList

end RuleScout
