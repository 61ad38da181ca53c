import RuleScout.Rule.Basic

/-!
# White space and line ends

Rules about the layout of the text itself: trailing spaces, the line break at the end of the
file, and the style of line breaks. They look at the tokens and lines of the unit.
-/

set_option autoImplicit false

namespace RuleScout.Layout

/-! ## Trailing spaces -/

def trailing (line column : Nat) : Violation := ⟨"Trailing spaces not allowed.", line, column⟩

/-- The violations in the lines of a comment; `line` and `column` say where the first one
starts. -/
def inComment (line column : Nat) : List (List Char) → List Violation
  | [] => []
  | part :: parts =>
    let text := Line.dropReturn part
    let kept := (text.reverse.dropWhile Line.isIndent).reverse
    let rest := inComment (line + 1) 1 parts
    if kept.length = text.length then rest
    else trailing line (column + kept.length) :: rest

def ofSpace (skipBlank : Bool) (before : Option Token) (t : Token) (after : Option Token) :
    List Violation :=
  let atLineEnd := after.all (·.kind = .newline)
  let blank := before.all (·.kind = .newline)
  if atLineEnd && !(skipBlank && blank) then [trailing t.line t.column] else []

def trailingSpaces (skipBlank ignoreComments : Bool) : Option Token → List Token → List Violation
  | _, [] => []
  | before, t :: ts =>
    let found :=
      if t.kind = .whitespace then ofSpace skipBlank before t ts.head?
      else if t.kind.isComment && !ignoreComments then
        inComment t.line t.column (Line.split t.chars)
      else []
    found ++ trailingSpaces skipBlank ignoreComments (some t) ts

def precedes (a b : Violation) : Bool :=
  a.line < b.line || (a.line = b.line && a.column ≤ b.column)

def noTrailingSpaces : Rule where
  metadata :=
    { id := "no-trailing-spaces"
      name := "No Trailing Spaces"
      description := "Disallow trailing whitespace at the end of lines"
      category := .layout
      schema := [.object [⟨"skipBlankLines", .boolean⟩, ⟨"ignoreComments", .boolean⟩]] }
  check u options :=
    let skipBlank := options.flag 0 "skipBlankLines" false
    let ignoreComments := options.flag 0 "ignoreComments" false
    (trailingSpaces skipBlank ignoreComments none u.tokens.toList).mergeSort precedes

/-! ## The end of the file -/

def endFault? (wanted : String) (present : Bool) : Option String :=
  if wanted = "never" then
    if present then some "Newline not allowed at end of file." else none
  else if present then none
  else some "Newline required at end of file but not found."

def eolLast : Rule where
  metadata :=
    { id := "eol-last"
      name := "Newline At End Of File"
      description := "Require or disallow a newline at the end of files"
      category := .layout
      schema := [.enumeration [.string "always", .string "never"]] }
  check u options :=
    if u.text.isEmpty then []
    else
      match u.lines.getLast?, endFault? (options.string 0 "always") u.endsWithNewline with
      | some last, some message => [⟨message, last.number, last.chars.length + 1⟩]
      | _, _ => []

/-! ## The style of line breaks -/

inductive Linebreak where
  | unix
  | windows
  deriving DecidableEq, Repr

namespace Linebreak

def ofName (name : String) : Linebreak := if name = "windows" then .windows else .unix

def text : Linebreak → String
  | .unix => "\n"
  | .windows => "\r\n"

def message : Linebreak → String
  | .unix => "Expected linebreaks to be 'LF' but found 'CRLF'."
  | .windows => "Expected linebreaks to be 'CRLF' but found 'LF'."

end Linebreak

def linebreakStyle : Rule where
  metadata :=
    { id := "linebreak-style"
      name := "Linebreak Style"
      description := "Enforce consistent linebreak style"
      category := .layout
      schema := [.enumeration [.string "unix", .string "windows"]] }
  check u options :=
    let wanted := Linebreak.ofName (options.string 0 "unix")
    (u.tokens.toList.filter fun t => t.kind = .newline && t.text ≠ wanted.text).map
      (.atStart · wanted.message)

end RuleScout.Layout
