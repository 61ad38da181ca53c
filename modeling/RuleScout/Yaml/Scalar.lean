import RuleScout.Number.Reading
import RuleScout.Number.Word

/-!
# What a plain YAML scalar means

A scalar written without quotes may stand for null, a truth value or a number; everything else
is text. The reader uses this to find the value, and the printer to see which texts need
quotes.
-/

set_option autoImplicit false

namespace RuleScout.Yaml

/-- The meaning of a plain scalar. Whole numbers have no bound here. -/
inductive Meaning where
  | null
  | bool (b : Bool)
  | int (n : Int)
  | float (x : Binary64)
  | text
  deriving DecidableEq, Repr

def isNull (s : String) : Bool := s ∈ ["", "null", "Null", "NULL", "~"]

def bool? (s : String) : Option Bool :=
  if s ∈ ["true", "True", "TRUE"] then some true
  else if s ∈ ["false", "False", "FALSE"] then some false
  else none

def isSign (c : Char) : Bool := c = '+' || c = '-'

def hasLeadingZero (cs : List Char) : Bool :=
  let ds := if cs.head?.any isSign then cs.tail else cs
  1 < ds.length && ds.head? = some '0' && ds.all Char.isDigit

def based? : List Char → Option (Nat × List Char)
  | '0' :: 'x' :: ds => some (16, ds)
  | '0' :: 'o' :: ds => some (8, ds)
  | '0' :: 'b' :: ds => some (2, ds)
  | _ => none

def magnitude? (cs : List Char) : Option Nat :=
  match (based? cs).bind fun (base, ds) => Number.natOf? base ds with
  | some n => some n
  | none => Number.natOf? 10 cs

def widest : Nat := Word.count * Word.count

def int? (cs : List Char) : Option Int :=
  if hasLeadingZero cs then none
  else
    match cs with
    | '-' :: ds =>
      (magnitude? ds).bind fun n => if n ≤ widest / 2 then some (-(n : Int)) else none
    | '+' :: ds => (magnitude? ds).bind fun n => if n < widest then some n else none
    | ds => (magnitude? ds).bind fun n => if n < widest then some n else none

def infinite? (s : String) : Option Binary64 :=
  if s ∈ [".inf", ".Inf", ".INF", "+.inf", "+.Inf", "+.INF"] then some .infinity
  else if s ∈ ["-.inf", "-.Inf", "-.INF"] then some Binary64.infinity.neg
  else if s ∈ [".nan", ".NaN", ".NAN"] then some ⟨0x7FF8000000000000⟩
  else none

def finite? (cs : List Char) : Option Binary64 :=
  let (negative, ds) : Bool × List Char :=
    match cs with
    | '-' :: ds => (true, ds)
    | '+' :: ds => (false, ds)
    | ds => (false, ds)
  (Number.decimalOf? ds).bind fun x => if x.isFinite then some (x.withSign negative) else none

def float? (s : String) : Option Binary64 := infinite? s <|> finite? s.toList

def meaning (s : String) : Meaning :=
  if isNull s then .null
  else if hasLeadingZero s.toList then .text
  else
    match bool? s, int? s.toList, float? s with
    | some b, _, _ => .bool b
    | none, some n, _ => .int n
    | none, none, some x => .float x
    | none, none, none => .text

end RuleScout.Yaml
