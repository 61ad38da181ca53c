import RuleScout.Value

/-!
# Numbers in JSON

A number without point and exponent that fits a 64-bit word, signed or unsigned, is a whole
number. Any other is a floating point number: the first digits, as many as fit an unsigned
word, are rounded, and then multiplied or divided by a rounded power of ten. `-0` is the
negative zero.
-/

set_option autoImplicit false

namespace RuleScout.Json

/-- The leading digits of a number: those that fit a word, and the power of ten that the
others, or a fraction, leave. -/
structure Significand where
  value : Nat
  exponent : Int
  deriving DecidableEq, Repr

namespace Significand

def fits (s : Significand) (d : Char) : Bool :=
  s.value * 10 + (d.toNat - '0'.toNat) < Word.count

def push (s : Significand) (d : Char) : Nat := s.value * 10 + (d.toNat - '0'.toNat)

/-- Digits before the point. After one that does not fit, all others only raise the power. -/
def whole (s : Significand) : List Char → Significand
  | [] => s
  | d :: ds =>
    if s.exponent = 0 && s.fits d then whole ⟨s.push d, 0⟩ ds
    else whole ⟨s.value, s.exponent + 1⟩ ds

def fraction (s : Significand) : List Char → Significand
  | [] => s
  | d :: ds => if s.fits d then fraction ⟨s.push d, s.exponent - 1⟩ ds else s

end Significand

/-- `x * 10 ^ e`, or nothing when that is too large. -/
def scale : Nat → Float → Int → Option Float
  | 0, x, _ => some x
  | fuel + 1, x, e =>
    let power := (Binary64.nearest 1 e.natAbs).toFloat
    if e.natAbs ≤ 308 then
      if 0 ≤ e then if (x * power).isInf then none else some (x * power) else some (x / power)
    else if x == 0 then some x
    else if 0 ≤ e then none
    else scale fuel (x / (Binary64.nearest 1 308).toFloat) (e + 308)

def Significand.toFloat? (s : Significand) (negative : Bool) : Option Value :=
  (scale 4 (Binary64.nearest s.value 0).toFloat s.exponent).map fun x =>
    .float ((Binary64.ofFloat x).withSign negative)

def digits (cs : List Char) : List Char × List Char := cs.span Char.isDigit

/-- The value of an exponent's digits. Beyond the range of a 32-bit word it makes no
difference how large it is. -/
def exponentValue (ds : List Char) : Int :=
  ds.foldl (fun (n : Int) d => min (n * 10 + (d.toNat - '0'.toNat : Nat)) 0x80000000) 0

def readExponent (s : Significand) (cs : List Char) : Option (Significand × List Char) :=
  let (sign, cs) : Int × List Char :=
    match cs with
    | '+' :: cs => (1, cs)
    | '-' :: cs => (-1, cs)
    | cs => (1, cs)
  match digits cs with
  | ([], _) => none
  | (ds, cs) => some (⟨s.value, s.exponent + sign * exponentValue ds⟩, cs)

def isExponentMark (c : Char) : Bool := c = 'e' || c = 'E'

def readTail (negative : Bool) (s : Significand) (cs : List Char) :
    Option (Value × List Char) := do
  match cs with
  | '.' :: cs =>
    match digits cs with
    | ([], _) => none
    | (ds, cs) =>
      let s := s.fraction ds
      match cs with
      | c :: rest =>
        if isExponentMark c then
          let (s, rest) ← readExponent s rest
          return (← s.toFloat? negative, rest)
        else return (← s.toFloat? negative, cs)
      | [] => return (← s.toFloat? negative, [])
  | c :: rest =>
    if isExponentMark c then
      let (s, rest) ← readExponent s rest
      return (← s.toFloat? negative, rest)
    else integer cs
  | [] => integer []
where
  integer (cs : List Char) : Option (Value × List Char) :=
    if s.exponent = 0 && !negative then some (.int s.value, cs)
    else if s.exponent = 0 && 0 < s.value && s.value ≤ Word.half then
      some (.int (-(s.value : Int)), cs)
    else (s.toFloat? negative).map (·, cs)

def readNumber (cs : List Char) : Option (Value × List Char) :=
  let (negative, cs) : Bool × List Char :=
    match cs with
    | '-' :: cs => (true, cs)
    | cs => (false, cs)
  match digits cs with
  | ([], _) => none
  | ('0' :: _ :: _, _) => none
  | (ds, cs) => readTail negative (Significand.whole ⟨0, 0⟩ ds) cs

end RuleScout.Json
