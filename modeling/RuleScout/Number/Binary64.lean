/-!
# Binary floating point numbers

A number is kept as its 64-bit pattern, so equality is plain and nothing is rounded by
storing it. `decompose` reads a finite pattern as `m * 2 ^ q` in whole numbers.
-/

set_option autoImplicit false

namespace RuleScout

structure Binary64 where
  bits : UInt64
  deriving DecidableEq, Repr

namespace Binary64

def ofFloat (x : Float) : Binary64 := ⟨x.toBits⟩

def toFloat (x : Binary64) : Float := Float.ofBits x.bits

def infinity : Binary64 := ⟨0x7FF0000000000000⟩

/-- The nearest number to `m * 10 ^ e`, ties to even. Values that are far out of range are
settled by their magnitude, so that a huge exponent costs nothing. -/
def nearest (m : Nat) (e : Int) : Binary64 :=
  let digits : Int := (Nat.toDigits 10 m).length
  if m = 0 || e + digits < -400 then ⟨0⟩
  else if 400 < e + digits then infinity
  else if e < 0 then ofFloat (Float.ofScientific m true e.natAbs)
  else ofFloat (Float.ofScientific m false e.natAbs)

def isNegative (x : Binary64) : Bool := x.bits >>> 63 = 1

def neg (x : Binary64) : Binary64 := ⟨x.bits ^^^ 0x8000000000000000⟩

def withSign (negative : Bool) (x : Binary64) : Binary64 := if negative then x.neg else x

def fraction (x : Binary64) : Nat := (x.bits &&& 0xFFFFFFFFFFFFF).toNat

/-- The exponent field; 2047 marks infinities and results that are no number. -/
def exponentField (x : Binary64) : Nat := ((x.bits >>> 52) &&& 0x7FF).toNat

def isFinite (x : Binary64) : Bool := x.exponentField < 2047

/-- `(m, q)` with `|x| = m * 2 ^ q`, for a finite number. -/
def decompose (x : Binary64) : Nat × Int :=
  if x.exponentField = 0 then (x.fraction, -1074)
  else (0x10000000000000 + x.fraction, (x.exponentField : Int) - 1075)

def isZero (x : Binary64) : Bool := x.decompose.1 = 0

def atPowerOfTwo (x : Binary64) : Bool := x.fraction = 0 && x.exponentField > 1

end Binary64

end RuleScout
