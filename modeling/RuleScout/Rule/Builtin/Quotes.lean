import RuleScout.Text.Slice
import RuleScout.Rule.Basic

/-!
# Quote style of string literals
-/

set_option autoImplicit false

namespace RuleScout.Quotes

inductive Style where
  | double
  | single
  | backtick
  deriving DecidableEq, Repr

namespace Style

def ofName (name : String) : Style :=
  match name with
  | "single" => .single
  | "backtick" => .backtick
  | _ => .double

def quote : Style → Char
  | .double => '"'
  | .single => '\''
  | .backtick => '\x60'

def describe : Style → String
  | .double => "doublequote"
  | .single => "singlequote"
  | .backtick => "backtick"

end Style

def body (l : Lexeme) : List Char := l.chars.tail.dropLast

def isPlain (l : Lexeme) : Bool :=
  !Text.occursIn ['$', '\x7b'] (body l) && !(body l).contains '\n'

def isTagged (c : Code) (p : Nat) : Bool :=
  (c.before? p).any fun l => l.kind = .identifier || l.isPunct ")" || l.isPunct "]"

/-- Whether another quote is put up with so that the preferred one needs no escape. -/
def isExcused (style : Style) (avoidEscape : Bool) (l : Lexeme) : Bool :=
  avoidEscape && (body l).contains style.quote

def isWrong (c : Code) (style : Style) (avoidEscape allowTemplates : Bool) (p : Nat) : Bool :=
  (c.at? p).any fun l =>
    match l.kind with
    | .string => l.quote? ≠ some style.quote && !isExcused style avoidEscape l
    | .template =>
      style ≠ .backtick && !allowTemplates && isPlain l && !isTagged c p &&
        !isExcused style avoidEscape l
    | _ => false

def sites (c : Code) (options : Options) : List Site :=
  let style := Style.ofName (options.string 0 "double")
  let avoidEscape := options.flag 1 "avoidEscape" false
  let allowTemplates := options.flag 1 "allowTemplateLiterals" false
  (c.positions.filter (isWrong c style avoidEscape allowTemplates)).map
    (.start · ("Strings must use " ++ style.describe ++ "."))

def rule : Rule := .onCode
  { id := "quotes"
    name := "Quotes"
    description := "Enforce the consistent use of double quotes, single quotes or backticks"
    category := .style
    schema :=
      [.enumeration [.string "double", .string "single", .string "backtick"],
        .object [⟨"avoidEscape", .boolean⟩, ⟨"allowTemplateLiterals", .boolean⟩]] }
  sites

end RuleScout.Quotes
