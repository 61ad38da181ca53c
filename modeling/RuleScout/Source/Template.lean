import RuleScout.Source.LexError

/-!
# Template literals

A template literal holds substitutions, a substitution holds code, and code holds strings,
comments and further templates. One machine reads them all: its stack says what is open, the
innermost first, and it stops when nothing is. Code is read for its extent only: braces are
counted, and regular expressions are not recognised.
-/

set_option autoImplicit false

namespace RuleScout.Template

/-- Something that is open. `start` is the offset of its first character. -/
inductive Frame where
  /-- Inside the backticks. -/
  | literal (start : Nat)
  /-- Inside a substitution, with `depth` braces of its own open. -/
  | code (start : Nat) (depth : Nat)
  | quoted (quote : Char)
  | lineComment
  | blockComment (start : Nat)
  deriving DecidableEq, Repr

/-- The error of a text that ends too early. An open string or line comment is not reported as
such, but as the substitution that it keeps from ending. -/
def unterminated : List Frame → LexError
  | .literal start :: _ => ⟨.unterminatedTemplate, start⟩
  | .code start _ :: _ => ⟨.unterminatedSubstitution, start⟩
  | .blockComment start :: _ => ⟨.unterminatedComment, start⟩
  | .quoted _ :: below => unterminated below
  | .lineComment :: below => unterminated below
  | [] => ⟨.unterminatedTemplate, 0⟩

/-- The number of characters after which nothing is open any more; `at_` is the offset of the
first of them. -/
def scan : List Frame → Nat → List Char → Except LexError Nat
  | [], _, _ => .ok 0
  | stack, _, [] => .error (unterminated stack)
  | .literal s :: below, i, c :: cs =>
    match c, cs with
    | '\\', d :: cs => (· + 2) <$> scan (.literal s :: below) (i + 1 + d.utf8Size) cs
    | '\x60', cs => (· + 1) <$> scan below (i + 1) cs
    | '$', '{' :: cs => (· + 2) <$> scan (.code i 0 :: .literal s :: below) (i + 2) cs
    | c, cs => (· + 1) <$> scan (.literal s :: below) (i + c.utf8Size) cs
  | .code s depth :: below, i, c :: cs =>
    match c, cs with
    | '{', cs => (· + 1) <$> scan (.code s (depth + 1) :: below) (i + 1) cs
    | '}', cs =>
      match depth with
      | 0 => (· + 1) <$> scan below (i + 1) cs
      | depth + 1 => (· + 1) <$> scan (.code s depth :: below) (i + 1) cs
    | '\x60', cs => (· + 1) <$> scan (.literal i :: .code s depth :: below) (i + 1) cs
    | '/', '/' :: cs => (· + 2) <$> scan (.lineComment :: .code s depth :: below) (i + 2) cs
    | '/', '*' :: cs => (· + 2) <$> scan (.blockComment i :: .code s depth :: below) (i + 2) cs
    | '"', cs => (· + 1) <$> scan (.quoted '"' :: .code s depth :: below) (i + 1) cs
    | '\'', cs => (· + 1) <$> scan (.quoted '\'' :: .code s depth :: below) (i + 1) cs
    | c, cs => (· + 1) <$> scan (.code s depth :: below) (i + c.utf8Size) cs
  | .quoted quote :: below, i, c :: cs =>
    match c, cs with
    | '\\', d :: cs => (· + 2) <$> scan (.quoted quote :: below) (i + 1 + d.utf8Size) cs
    | c, cs =>
      if c = quote then (· + 1) <$> scan below (i + c.utf8Size) cs
      else (· + 1) <$> scan (.quoted quote :: below) (i + c.utf8Size) cs
  | .lineComment :: below, i, c :: cs =>
    if c = '\n' then (· + 1) <$> scan below (i + 1) cs
    else (· + 1) <$> scan (.lineComment :: below) (i + c.utf8Size) cs
  | .blockComment s :: below, i, c :: cs =>
    match c, cs with
    | '*', '/' :: cs => (· + 2) <$> scan below (i + 2) cs
    | c, cs => (· + 1) <$> scan (.blockComment s :: below) (i + c.utf8Size) cs
termination_by structural _ _ cs => cs

def scanLiteral (start : Nat) (cs : List Char) : Except LexError Nat :=
  scan [.literal start] (start + 1) cs

end RuleScout.Template
