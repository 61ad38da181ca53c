import RuleScout.Number.Binary64

/-!
# Reading numbers from text

Digits in a base, and decimal numbers with a point and an exponent, rounded to the nearest
binary number.
-/

set_option autoImplicit false

namespace RuleScout.Number

def digitValue? (c : Char) : Option Nat :=
  if c.isDigit then some (c.toNat - '0'.toNat)
  else if 'a' ≤ c && c ≤ 'z' then some (c.toNat - 'a'.toNat + 10)
  else if 'A' ≤ c && c ≤ 'Z' then some (c.toNat - 'A'.toNat + 10)
  else none

def natOf? (base : Nat) (cs : List Char) : Option Nat :=
  if cs.isEmpty then none
  else
    cs.foldlM (fun n c => do
      let d ← digitValue? c
      if d < base then some (n * base + d) else none) 0

def splitAt? (p : Char → Bool) (cs : List Char) : Option (List Char × List Char) :=
  match cs.span (fun c => !p c) with
  | (before, _ :: after) => some (before, after)
  | (_, []) => none

def isExponentMark (c : Char) : Bool := c = 'e' || c = 'E'

def exponentOf? (cs : List Char) : Option Int :=
  match cs with
  | '-' :: ds => (natOf? 10 ds).map fun n => -(n : Int)
  | '+' :: ds => (natOf? 10 ds).map fun n => (n : Int)
  | ds => (natOf? 10 ds).map fun n => (n : Int)

/-- Digits with an optional point, of which at least one is a digit, as `m * 10 ^ e`. -/
def mantissaOf? (cs : List Char) : Option (Nat × Int) :=
  match splitAt? (· = '.') cs with
  | none => (natOf? 10 cs).map (·, 0)
  | some (whole, fraction) =>
    (natOf? 10 (whole ++ fraction)).map (·, -(fraction.length : Int))

def decimalOf? (cs : List Char) : Option Binary64 := do
  let (mantissa, exponent) ←
    match splitAt? isExponentMark cs with
    | none => some (cs, 0)
    | some (m, e) => (exponentOf? e).map (m, ·)
  let (m, e) ← mantissaOf? mantissa
  return .nearest m (e + exponent)

end RuleScout.Number
