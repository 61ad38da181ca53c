import RuleScout.Rule.Basic
import RuleScout.Rule.Expression

/-!
# Consistent indentation

Each line is measured against the line of the innermost open bracket: one unit deeper inside
the bracket, level with it where it is closed. A line that continues an expression may be one
more unit deeper. Lines inside comments and templates are not checked.

Widths are words. The check has no answer if a number on the way to a width does not fit.
-/

set_option autoImplicit false

namespace RuleScout.Indent

/-- First lexemes that continue the expression of the line before. -/
def continuationStarters : List String :=
  [".", "?.", "+", "-", "*", "/", "%", "&&", "||", "??", "?", ":", "=", "==", "===", "!=",
    "!==", "<", ">", "<=", ">=", "|", "&", "^", "=>"]

def lineEnders : List String :=
  [";", "\x7b", "\x7d", "(", "[", ")", "]", ",", "++", "--", ":"]

def continuingKeywords : List String :=
  ["else", "do", "return", "typeof", "new", "await", "yield"]

/-- One step of indentation, and the steps of a `case` inside its `switch`. -/
structure Step where
  character : Char
  size : Nat
  switchCase : Nat
  deriving DecidableEq, Repr

namespace Step

def ofOptions (o : Options) : Step :=
  let switchCase := ((o.property? 1 "SwitchCase").bind Value.nat?).getD 0
  match o.get? 0 with
  | some (.string "tab") => ⟨'\t', 1, switchCase⟩
  | some (.int (.ofNat n)) => ⟨' ', n, switchCase⟩
  | _ => ⟨' ', 4, switchCase⟩

end Step

def counted (n : Nat) (unit : String) : String :=
  toString n ++ " " ++ unit ++ (if n = 1 then "" else "s")

def Step.describe (s : Step) (width : Nat) : String :=
  counted width (if s.character = '\t' then "tab" else "space")

def describeFound (indentation : List Char) : String :=
  match indentation.count ' ', indentation.count '\t' with
  | 0, 0 => "0"
  | s, 0 => counted s "space"
  | 0, t => counted t "tab"
  | s, t => counted s "space" ++ " and " ++ counted t "tab"

def lineWidth (u : SourceUnit) (i : Nat) : Nat :=
  match u.token? i with
  | none => 0
  | some t => (u.lines[t.line - 1]?.map (·.indentation.length)).getD 0

/-- Whether the token at index `i`, the first of its line, continues the line before. `p` is
the number of significant tokens before it. -/
def isContinuation (c : Code) (t : Token) (p : Nat) : Bool :=
  if t.kind = .punctuator && t.text ∈ continuationStarters then true
  else if t.isPunct "\x7b" then false
  else
    (Code.prev p).any fun q =>
      (c.at? q).any fun l =>
        match l.kind with
        | .punctuator => if l.text = ")" then c.closesHeader q else l.text ∉ lineEnders
        | .keyword => l.text ∈ continuingKeywords
        | _ => false

def isCloser (t : Token) : Bool := t.isPunct "\x7d" || t.isPunct ")" || t.isPunct "]"

/-- The steps by which a line inside an open bracket is deeper than the bracket's line. -/
def levels (u : SourceUnit) (c : Code) (s : Step) (t : Token) (opener : Nat) :
    Except Word.Overflow Nat :=
  if c.followsHeader (u.rank opener) ["switch"] then
    Word.checked (s.switchCase + if t.isKeyword "case" || t.isKeyword "default" then 0 else 1)
  else return 1

def baseWidth (u : SourceUnit) (c : Code) (s : Step) (line : Line) (first : Nat) (t : Token) :
    Except Word.Overflow Nat := do
  if isCloser t then return ((u.matching first).map (lineWidth u)).getD 0
  else
    match line.openBrackets.getLast? with
    | none => return 0
    | some opener =>
      let count ← levels u c s t opener
      let steps ← Word.checked (count * s.size)
      Word.checked (lineWidth u opener + steps)

def expectedWidths (u : SourceUnit) (c : Code) (s : Step) (line : Line) (first : Nat)
    (t : Token) : Except Word.Overflow (List Nat) := do
  let base ← baseWidth u c s line first t
  if !isCloser t && isContinuation c t (u.rank first) then
    let deeper ← Word.checked (base + s.size)
    return [base, deeper]
  else return [base]

def nextCodeLine (u : SourceUnit) (lines : List Line) : Option (Line × Nat × Token) :=
  lines.findSome? fun line =>
    if line.continued then none
    else
      line.firstToken.bind fun first =>
        (u.token? first).bind fun t => if t.kind.isComment then none else some (line, first, t)

/-- The widths for a line; a comment may also be level with the code it stands before. -/
def acceptedWidths (u : SourceUnit) (c : Code) (s : Step) (line : Line) (later : List Line)
    (first : Nat) (t : Token) : Except Word.Overflow (List Nat) := do
  let own ← expectedWidths u c s line first t
  if t.kind.isComment then
    match nextCodeLine u later with
    | none => return own
    | some (next, i, n) =>
      let others ← expectedWidths u c s next i n
      return own ++ others
  else return own

def fits (s : Step) (found : List Char) (width : Nat) : Bool :=
  found.length = width && found.all (· = s.character)

def judge (s : Step) (line : Line) (accepted : List Nat) : List Violation :=
  let found := line.indentation
  if accepted.any (fits s found) then []
  else
    [⟨"Expected indentation of " ++ s.describe (accepted.head?.getD 0) ++ " but found " ++
      describeFound found ++ ".", line.number, 1⟩]

def checkLine (u : SourceUnit) (c : Code) (s : Step) (line : Line) (later : List Line) :
    Except Word.Overflow (List Violation) := do
  match line.firstToken with
  | none => return []
  | some first =>
    match u.token? first with
    | none => return []
    | some t =>
      if line.continued || line.isBlank then return []
      else
        let accepted ← acceptedWidths u c s line later first t
        return judge s line accepted

def checkLines (u : SourceUnit) (c : Code) (s : Step) :
    List Line → Except Word.Overflow (List Violation)
  | [] => return []
  | line :: later => do
    let found ← checkLine u c s line later
    let others ← checkLines u c s later
    return found ++ others

def rule : Rule := .ofRun
  { id := "indent"
    name := "Indentation"
    description := "Enforce consistent indentation"
    category := .layout
    schema :=
      [.enumeration [.string "tab", .int 2, .int 4],
        .object [⟨"SwitchCase", .enumeration [.int 0, .int 1]⟩]] }
  fun u options => checkLines u u.code (.ofOptions options) u.lines

end RuleScout.Indent
