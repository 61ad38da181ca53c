import RuleScout.Number.Binary64

/-!
# Shortest decimal digits

The decimal written for a binary number has the fewest digits that read back as that number,
and among those the value nearest to it. The search is exact: for one digit, two digits and so
on it tests the two points of the decimal grid next to the value against the interval of reals
that round to the value.
-/

set_option autoImplicit false

namespace RuleScout

structure Decimal where
  mantissa : Nat
  exponent : Int
  deriving DecidableEq, Repr

namespace Decimal

/-- Moves trailing zeros of the mantissa into the exponent, at most `fuel` of them. -/
def strip : Nat → Decimal → Decimal
  | 0, d => d
  | fuel + 1, d =>
    if d.mantissa ≠ 0 && d.mantissa % 10 = 0 then
      strip fuel ⟨d.mantissa / 10, d.exponent + 1⟩
    else d

def digits (d : Decimal) : List Char := Nat.toDigits 10 d.mantissa

end Decimal

namespace Binary64

structure Rounding where
  low : Nat
  value : Nat
  high : Nat
  den : Nat
  closed : Bool

/-- The reals that round to `|x|`. Its ends belong to it when the significand is even. -/
def rounding (x : Binary64) : Rounding :=
  let (m, q) := x.decompose
  let low := if x.atPowerOfTwo then 4 * m - 1 else 4 * m - 2
  let scale := Nat.pow 2 (q - 2).toNat
  { low := low * scale
    value := 4 * m * scale
    high := (4 * m + 2) * scale
    den := Nat.pow 2 (2 - q).toNat
    closed := m % 2 = 0 }

def Rounding.holds (r : Rounding) (n : Nat) (e : Int) : Bool :=
  let scaled := n * Nat.pow 10 e.toNat * r.den
  let unit := Nat.pow 10 (-e).toNat
  if r.closed then r.low * unit ≤ scaled && scaled ≤ r.high * unit
  else r.low * unit < scaled && scaled < r.high * unit

/-- The number of decimal digits before the point, or minus the zeros after it, of a positive
value: the least `k` with `value < 10 ^ k`, searched upwards from `k`. -/
def Rounding.magnitude (r : Rounding) : Nat → Int → Int
  | 0, k => k
  | fuel + 1, k =>
    if r.value * Nat.pow 10 (-k).toNat < Nat.pow 10 k.toNat * r.den then k
    else r.magnitude fuel (k + 1)

/-- The better of the two points next to the value on the grid of `10 ^ e`, if one of them
reads back. A tie goes to the even one. -/
def Rounding.point? (r : Rounding) (e : Int) : Option Nat :=
  let num := r.value * Nat.pow 10 (-e).toNat
  let den := r.den * Nat.pow 10 e.toNat
  let down := num / den
  let rest := num % den
  match r.holds down e, r.holds (down + 1) e with
  | true, false => some down
  | false, true => some (down + 1)
  | false, false => none
  | true, true =>
    if 2 * rest < den then some down
    else if den < 2 * rest then some (down + 1)
    else some (if down % 2 = 0 then down else down + 1)

/-- Tries grids of growing fineness; the second argument is the exponent of the coarsest. -/
def Rounding.search (r : Rounding) : Nat → Int → Decimal
  | 0, e => ⟨r.value * Nat.pow 10 (-e).toNat / (r.den * Nat.pow 10 e.toNat), e⟩
  | fuel + 1, e =>
    match r.point? e with
    | some n => ⟨n, e⟩
    | none => r.search fuel (e - 1)

def shortest (x : Binary64) : Decimal :=
  if x.isZero then ⟨0, 0⟩
  else
    let r := x.rounding
    let (_, q) := x.decompose
    -- A lower estimate of the magnitude: 2 ^ q has at least as many digits.
    let k := r.magnitude 24 (q * 30103 / 100000 - 1)
    (r.search 17 (k - 1)).strip 20

end Binary64

end RuleScout
