import RuleScout.Value

/-!
# Reading a rule's options

Options are a list of values without a declared shape. A rule asks for what it needs at a
position; a value that is missing or of another kind counts as not given.
-/

set_option autoImplicit false

namespace RuleScout

structure Options where
  values : List Value
  deriving DecidableEq, Repr

namespace Options

def empty : Options := ⟨[]⟩

def get? (o : Options) (i : Nat) : Option Value := o.values[i]?

def isEmpty (o : Options) : Bool := o.values.isEmpty

def string (o : Options) (i : Nat) (default : String) : String :=
  ((o.get? i).bind Value.string?).getD default

def int64? (o : Options) (i : Nat) : Option Int := (o.get? i).bind Value.int64?

def property? (o : Options) (i : Nat) (key : String) : Option Value :=
  (o.get? i).bind (·.field? key)

def flag (o : Options) (i : Nat) (key : String) (default : Bool) : Bool :=
  ((o.property? i key).bind Value.bool?).getD default

def stringProperty? (o : Options) (i : Nat) (key : String) : Option String :=
  (o.property? i key).bind Value.string?

end Options

end RuleScout
