import RuleScout.Value
import RuleScout.Number.Reading

/-!
# Bare TOML values

Truth values, numbers, dates and times are written without quotes. A date or time is read as
an object with one field of a reserved name, which holds its normal form.
-/

set_option autoImplicit false

namespace RuleScout.Toml

def isBareValueChar (c : Char) : Bool := c.isAlphanum || c ∈ "_-+.:".toList

/-- Digits, with single underscores between them. -/
def digits? (p : Char → Bool) : List Char → Option (List Char)
  | [] => none
  | [d] => if p d then some [d] else none
  | d :: '_' :: e :: rest => if p d then (digits? p (e :: rest)).map (d :: ·) else none
  | d :: e :: rest => if p d then (digits? p (e :: rest)).map (d :: ·) else none

def decimalDigits? (cs : List Char) : Option (List Char) := digits? Char.isDigit cs

def wholeDigits? (cs : List Char) : Option (List Char) :=
  (decimalDigits? cs).bind fun ds => if ds.head? = some '0' && 1 < ds.length then none else some ds

def splitSign (cs : List Char) : Bool × List Char :=
  match cs with
  | '-' :: cs => (true, cs)
  | '+' :: cs => (false, cs)
  | cs => (false, cs)

def based? (base : Nat) (cs : List Char) : Option Int :=
  (digits? Char.isAlphanum cs).bind fun ds => (Number.natOf? base ds).map fun n => (n : Int)

def int? (cs : List Char) : Option Int :=
  match cs with
  | '0' :: 'x' :: ds => based? 16 ds
  | '0' :: 'o' :: ds => based? 8 ds
  | '0' :: 'b' :: ds => based? 2 ds
  | cs =>
    let (negative, cs) := splitSign cs
    ((wholeDigits? cs).bind (Number.natOf? 10)).map fun n => if negative then -(n : Int) else n

def fraction? (cs : List Char) : Option (List Char) := (decimalDigits? cs).map ('.' :: ·)

def floatText? (cs : List Char) : Option (List Char) := do
  let (mantissa, exponent) ←
    match Number.splitAt? Number.isExponentMark cs with
    | none => some (cs, [])
    | some (m, e) =>
      let (negative, ds) := splitSign e
      (decimalDigits? ds).map fun ds => (m, 'e' :: (if negative then ['-'] else []) ++ ds)
  match Number.splitAt? (· = '.') mantissa with
  | some (whole, fraction) =>
    return (← wholeDigits? whole) ++ (← fraction? fraction) ++ exponent
  | none => if exponent.isEmpty then none else return (← wholeDigits? mantissa) ++ exponent

/-- A floating point number. The special ones have no value of their own and give null. -/
def float? (cs : List Char) : Option Value :=
  let (negative, cs) := splitSign cs
  if cs = "inf".toList || cs = "nan".toList then some .null
  else do
    let x ← Number.decimalOf? (← floatText? cs)
    if x.isFinite then some (.float (x.withSign negative)) else none

/-! ## Dates and times -/

def fixed? (width : Nat) (cs : List Char) : Option (Nat × List Char) :=
  let ds := cs.take width
  if ds.length = width && ds.all Char.isDigit then
    (Number.natOf? 10 ds).map fun n => (n, cs.drop width)
  else none

def expect? (x : Char) (cs : List Char) : Option (List Char) :=
  match cs with
  | c :: cs => if c = x then some cs else none
  | [] => none

def padded (width n : Nat) : String :=
  let ds := (toString n).toList
  String.ofList (List.replicate (width - ds.length) '0' ++ ds)

def isLeapYear (y : Nat) : Bool := y % 4 = 0 && (y % 100 ≠ 0 || y % 400 = 0)

def daysOf (year month : Nat) : Nat :=
  if month = 2 then if isLeapYear year then 29 else 28
  else if month ∈ [4, 6, 9, 11] then 30
  else 31

def date? (cs : List Char) : Option (String × List Char) := do
  let (year, cs) ← fixed? 4 cs
  let (month, cs) ← fixed? 2 (← expect? '-' cs)
  let (day, cs) ← fixed? 2 (← expect? '-' cs)
  if 1 ≤ month && month ≤ 12 && 1 ≤ day && day ≤ daysOf year month then
    return (padded 4 year ++ "-" ++ padded 2 month ++ "-" ++ padded 2 day, cs)
  else none

/-- The fraction of a second, to nine digits and without zeros at the end. -/
def secondFraction (ds : List Char) : String :=
  let kept := ((ds.take 9).reverse.dropWhile (· = '0')).reverse
  if kept.isEmpty then "" else String.ofList ('.' :: kept)

def time? (cs : List Char) : Option (String × List Char) := do
  let (hour, cs) ← fixed? 2 cs
  let (minute, cs) ← fixed? 2 (← expect? ':' cs)
  let (second, fraction, cs) ←
    match cs with
    | ':' :: cs => do
      let (second, cs) ← fixed? 2 cs
      match cs with
      | '.' :: cs =>
        let ds := cs.takeWhile Char.isDigit
        if ds.isEmpty then none else some (second, secondFraction ds, cs.drop ds.length)
      | cs => some (second, "", cs)
    | cs => some (0, "", cs)
  if hour ≤ 24 && minute ≤ 59 && second ≤ 60 then
    return (padded 2 hour ++ ":" ++ padded 2 minute ++ ":" ++ padded 2 second ++ fraction, cs)
  else none

def offset? (cs : List Char) : Option String :=
  match cs with
  | [] => some ""
  | ['Z'] | ['z'] => some "Z"
  | sign :: cs => do
    let (hours, cs) ← fixed? 2 cs
    let (minutes, cs) ← fixed? 2 (← expect? ':' cs)
    let total := hours * 60 + minutes
    if (sign = '+' || sign = '-') && cs.isEmpty && total ≤ 24 * 60 then
      let sign := if total = 0 then '+' else sign
      return String.singleton sign ++ padded 2 (total / 60) ++ ":" ++ padded 2 (total % 60)
    else none

def isDateEnd (c : Char) : Bool := c = 'T' || c = 't' || c = ' '

def dateTime? (cs : List Char) : Option String :=
  match date? cs with
  | some (date, []) => some date
  | some (date, c :: cs) =>
    if isDateEnd c then do
      let (time, cs) ← time? cs
      return date ++ "T" ++ time ++ (← offset? cs)
    else none
  | none => do
    let (time, cs) ← time? cs
    if cs.isEmpty then some time else none

def dateField : String := "$__toml_private_datetime"

/-! ## Values -/

def bareValue? (cs : List Char) : Option Value :=
  if cs = "true".toList then some (.bool true)
  else if cs = "false".toList then some (.bool false)
  else
    match int? cs, float? cs, dateTime? cs with
    | some n, _, _ => Value.ofWord? n
    | none, some x, _ => some x
    | none, none, some text => some (.object [(dateField, .string text)])
    | none, none, none => none

end RuleScout.Toml
