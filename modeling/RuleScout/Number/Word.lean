/-!
# 64-bit words

Whole numbers have no bounds of their own. Where one has to fit a word of 64 bits, it is
compared with the bounds here, and one that does not fit is an outcome of its own.
-/

set_option autoImplicit false

namespace RuleScout.Word

def count : Nat := 0x10000000000000000

/-- Half of them: a signed word has as many values below zero as from zero on. -/
def half : Nat := 0x8000000000000000

def fitsSigned (n : Int) : Bool := -(half : Int) ≤ n && n < (half : Int)

def fits (n : Int) : Bool := -(half : Int) ≤ n && n < (count : Int)

structure Overflow where
  exact : Nat
  deriving DecidableEq, Repr

def checked (n : Nat) : Except Overflow Nat := if n < count then .ok n else .error ⟨n⟩

end RuleScout.Word
