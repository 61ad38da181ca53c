import RuleScout.Rule.Basic
import RuleScout.Rule.Expression
import RuleScout.Source.Lexer

/-!
# Names that are declared but never used

Bindings come from `var`, `let` and `const` (with destructuring patterns), from function and
class declarations and from imports; exported declarations count as used. A name is used when
an identifier somewhere in the file reads it, substitutions of templates included. Scopes are
not tracked.
-/

set_option autoImplicit false

namespace RuleScout.UnusedNames

structure Binding where
  position : Nat
  assigned : Bool
  deriving DecidableEq, Repr

/-! ## Declarations -/

def isModifier (c : Code) (p : Nat) : Bool := c.isKeyword p "async" || c.isKeyword p "default"

def beforeModifiers (c : Code) : Nat → Option Nat
  | 0 => none
  | p + 1 => if isModifier c p then beforeModifiers c p else some p

def isExported (c : Code) (p : Nat) : Bool :=
  (beforeModifiers c p).any (c.isKeyword · "export")

def startsStatement (c : Code) (p : Nat) : Bool :=
  match beforeModifiers c p with
  | none => true
  | some q =>
    c.isPunct q ";" || c.isPunct q "\x7d" ||
      (c.isPunct q "\x7b" && c.braceKind q = some .block) || c.isKeyword q "export"

/-- Whether an initialiser ends between the positions `p` and `p + 1` because a new line starts
a new statement. -/
def breaksAfter (c : Code) (p : Nat) : Bool :=
  match c.at? p, c.after? p with
  | some before, some following =>
    before.endLine < following.line &&
      (following.kind = .identifier ||
        (following.kind = .keyword && following.text ≠ "instanceof")) &&
      c.endsExpression p
  | _, _ => false

/-- The start of the next declarator: the position after the comma that ends this one. The
search starts behind `p` and ends with the statement or at `scopeEnd`. -/
def nextDeclarator (c : Code) (scope scopeEnd : Option Nat) : Nat → Nat → Option Nat
  | 0, _ => none
  | left + 1, p =>
    let n := p + 1
    if some n = scopeEnd then none
    else if c.parent n = scope then
      if c.isPunct n "," then c.next n
      else if c.isPunct n ";" || c.isKeyword n "of" || c.isKeyword n "in" || breaksAfter c p then
        none
      else nextDeclarator c scope scopeEnd left n
    else nextDeclarator c scope scopeEnd left n

/-- What a pattern reader does next: it skips a default value until the bracket of the given
scope goes on. -/
structure PatternState where
  defaultScope : Option (Option Nat)
  bound : List Binding
  deriving DecidableEq, Repr

def readPattern (c : Code) (s : PatternState) (p : Nat) : PatternState :=
  match s.defaultScope with
  | some scope =>
    if (c.isPunct p "," && c.parent p = scope) || scope.bind c.matching = some p then
      { s with defaultScope := none }
    else s
  | none =>
    if c.isPunct p "=" then { s with defaultScope := some (c.parent p) }
    else if c.isKind p .identifier && !c.isPunct (p + 1) ":" then
      { s with bound := ⟨p, true⟩ :: s.bound }
    else s

def patternBindings (c : Code) (opener close : Nat) : List Binding :=
  let inside := List.range' (opener + 1) (close - (opener + 1))
  (inside.foldl (readPattern c) ⟨none, []⟩).bound.reverse

def assigns (c : Code) (p : Nat) : Bool :=
  c.isPunct p "=" || c.isKeyword p "of" || c.isKeyword p "in"

def declarators (c : Code) (scope : Option Nat) : Nat → Nat → List Binding
  | 0, _ => []
  | fuel + 1, p =>
    let onwards (last : Nat) : List Binding :=
      match nextDeclarator c scope (scope.bind c.matching) (c.size - (last + 1)) last with
      | some q => declarators c scope fuel q
      | none => []
    if c.isKind p .identifier then ⟨p, assigns c (p + 1)⟩ :: onwards p
    else if c.isPunct p "\x7b" || c.isPunct p "[" then
      match c.matching p with
      | some close => patternBindings c p close ++ onwards close
      | none => []
    else []

/-- The names of an import, from position `p` on; `outer` is the bracket around the import. -/
def importNames (c : Code) (outer : Option Nat) : Nat → Nat → List Binding
  | 0, _ => []
  | left + 1, p =>
    match c.at? p with
    | none => []
    | some l =>
      if l.kind = .string || l.isPunct ";" then []
      else if l.kind = .identifier then
        if l.text = "from" && c.parent p = outer then []
        else
          let renames := l.text = "as" && c.isKind (p + 1) .identifier
          let isRenamed := (c.after? p).any fun n => n.kind = .identifier && n.text = "as"
          let rest := importNames c outer left (p + 1)
          if renames || isRenamed then rest else ⟨p, false⟩ :: rest
      else importNames c outer left (p + 1)

def bindingsAt (c : Code) (p : Nat) : List Binding :=
  match c.at? p with
  | none => []
  | some l =>
    if l.kind = .keyword then
      match l.text with
      | "var" | "let" | "const" =>
        if isExported c p then [] else declarators c (c.parent p) c.size (p + 1)
      | "function" | "class" =>
        if c.isKind (p + 1) .identifier && startsStatement c p && !isExported c p then
          [⟨p + 1, false⟩]
        else []
      | "import" =>
        if c.isPunct (p + 1) "(" || c.isPunct (p + 1) "." then []
        else importNames c (c.parent p) c.size (p + 1)
      | _ => []
    else []

def collectBindings (c : Code) : List Binding := c.positions.flatMap (bindingsAt c)

/-! ## Uses -/

def isMemberDot (l : Lexeme) : Bool := l.isPunct "." || l.isPunct "?."

def isKey (c : Code) (p : Nat) : Bool :=
  (c.parent p).any (fun o => c.braceKind o = some .object) && c.isPunct (p + 1) ":" &&
    (c.before? p).any fun l => l.isPunct "\x7b" || l.isPunct ","

def isReference (c : Code) (p : Nat) : Bool :=
  if (c.before? p).any isMemberDot then false
  else if (c.after? p).isNone then true
  else !c.isPunct (p + 1) "=" && !isKey c p

/-- Splits off the body of a substitution; the rest starts with the brace that closes it. -/
def splitBody : Nat → List Char → List Char × List Char
  | _, [] => ([], [])
  | depth, c :: cs =>
    if c = '\x7d' && depth = 0 then ([], c :: cs)
    else
      let inner := if c = '\x7b' then depth + 1 else if c = '\x7d' then depth - 1 else depth
      let (body, rest) := splitBody inner cs
      (c :: body, rest)

/-- The identifiers and templates among lexemes that do not follow a member dot, in order. -/
def freeWords : Option Lexeme → List Lexeme → List Lexeme
  | _, [] => []
  | before, l :: ls =>
    let rest := freeWords (some l) ls
    if l.kind = .template || (l.kind = .identifier && !before.any isMemberDot) then l :: rest
    else rest

def namesIn : Nat → List Char → List String
  | 0, _ => []
  | _, [] => []
  | fuel + 1, '$' :: '\x7b' :: cs =>
    let (body, rest) := splitBody 0 cs
    let inner :=
      match lex (String.ofList body) with
      | .ok tokens =>
        (freeWords none ((tokens.filter (·.isSignificant)).map Token.toLexeme)).flatMap fun l =>
          if l.kind = .template then namesIn fuel l.chars else [l.text]
      | .error _ => []
    inner ++ namesIn fuel rest
  | fuel + 1, _ :: cs => namesIn fuel cs

def templateIdentifiers (text : String) : List String :=
  namesIn (text.length + 1) text.toList

def usedNames (c : Code) (declared : List Nat) : List String :=
  c.positions.flatMap fun p =>
    match c.at? p with
    | none => []
    | some l =>
      if l.kind = .identifier then
        if p ∉ declared && isReference c p then [l.text] else []
      else if l.kind = .template then templateIdentifiers l.text
      else []

def site? (c : Code) (used : List String) (b : Binding) : Option Site :=
  (c.at? b.position).bind fun l =>
    if l.text ∈ used then none
    else if b.assigned then
      some (.start b.position ("'" ++ l.text ++ "' is assigned a value but never used."))
    else some (.start b.position ("'" ++ l.text ++ "' is defined but never used."))

def sites (c : Code) (_ : Options) : List Site :=
  let bindings := collectBindings c
  let used := usedNames c (bindings.map (·.position))
  bindings.filterMap (site? c used)

def rule : Rule := .onCode
  { id := "no-unused-vars"
    name := "No Unused Variables"
    description := "Disallow variables, functions and imports that are never used"
    category := .correctness
    recommended := true
    schema := [.anything "vars, args and ignore patterns"] }
  sites

end RuleScout.UnusedNames
