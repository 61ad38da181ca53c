import RuleScout.Number.Shortest

/-!
# Writing a floating point number

Two layouts of the shortest digits. `scientific` goes over to an exponent for values that
would need more than sixteen digits before the point or more than five zeros behind it;
`positional` never does. Both keep a point in the text, so that the number is not taken for
an integer.
-/

set_option autoImplicit false

namespace RuleScout.Binary64

def widestWhole : Int := 16

/-- Below this number of digits before the point an exponent is used. -/
def deepestFraction : Int := -5

def zeros (n : Int) : List Char := List.replicate n.toNat '0'

def pointed (ds : List Char) (point : Int) : List Char :=
  let n : Int := ds.length
  if n ≤ point then ds ++ zeros (point - n) ++ ".0".toList
  else if 0 < point then ds.take point.toNat ++ '.' :: ds.drop point.toNat
  else "0.".toList ++ zeros (-point) ++ ds

def powered (ds : List Char) (exponent : Int) : List Char :=
  let mantissa :=
    match ds with
    | d :: e :: rest => d :: '.' :: e :: rest
    | short => short
  mantissa ++ 'e' :: (toString exponent).toList

def signed (x : Binary64) (cs : List Char) : String :=
  String.ofList (if x.isNegative then '-' :: cs else cs)

def scientific (x : Binary64) : String :=
  if x.isZero then signed x "0.0".toList
  else
    let d := x.shortest
    let ds := d.digits
    let point := d.exponent + ds.length
    signed x
      (if deepestFraction < point && point ≤ widestWhole then pointed ds point
        else powered ds (point - 1))

def positional (x : Binary64) : String :=
  if x.isZero then signed x "0.0".toList
  else
    let d := x.shortest
    let ds := d.digits
    signed x (pointed ds (d.exponent + ds.length))

end RuleScout.Binary64
