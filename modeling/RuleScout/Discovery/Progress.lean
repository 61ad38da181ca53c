import RuleScout.Number.Binary64

/-!
# Progress and cancellation

Work is divided into equal shares, and a report says how many of them are done. Reports of one
stage are scaled by the stage's weight. A cancellation takes effect once a given number of
reports has been made; it is looked at between two pieces of work only.
-/

set_option autoImplicit false

namespace RuleScout

structure Report where
  done : Nat
  total : Nat
  deriving DecidableEq, Repr

namespace Report

/-- The size of one share. Where there is nothing to do a share is nothing. -/
def share (total : Nat) : Float := if total = 0 then 0.0 else 1.0 / Float.ofNat total

def increment (r : Report) : Float := share r.total * Float.ofNat r.done

end Report

/-- An increment seen through a chain of weights, the outermost first. -/
def scaled (weights : List Float) (increment : Float) : Float :=
  weights.foldr (fun w x => x * w) increment

/-- The number of reports after which work is cancelled, if it is. -/
structure Cancellation where
  after : Option Nat
  deriving DecidableEq, Repr

namespace Cancellation

def never : Cancellation := ⟨none⟩

def inForce (c : Cancellation) (reports : Nat) : Bool := c.after.any (· ≤ reports)

end Cancellation

end RuleScout
