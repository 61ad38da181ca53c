import RuleScout.Value

/-!
# TOML tables while they are read

A table may be filled from several places of a document, but each of its parts is defined
once. What may still be added to a table depends on how it came about: by a header, because a
header further down implies it, or by a dotted key.
-/

set_option autoImplicit false

namespace RuleScout.Toml

inductive Origin where
  | header
  | implied
  | dotted
  deriving DecidableEq, Repr

/-- A part of a table. Values, tables in braces among them, are closed. A list of tables is
never empty, and its last table is still open. -/
inductive Item where
  | value (v : Value)
  | table (origin : Origin) (fields : List (String × Item))
  | tables (earlier : List (List (String × Item))) (last : List (String × Item))
  deriving Inhabited

abbrev Fields := List (String × Item)

namespace Fields

def replace (fs : Fields) (key : String) (item : Item) : Fields :=
  fs.map fun (k, i) => if k = key then (k, item) else (k, i)

def put? : List String → String → Value → Fields → Option Fields
  | [], key, v, fs =>
    if (fs.lookup key).isSome then none else some (fs ++ [(key, .value v)])
  | p :: ps, key, v, fs =>
    match fs.lookup p with
    | none => (put? ps key v []).map fun inner => fs ++ [(p, .table .dotted inner)]
    | some (.table .dotted inner) =>
      (put? ps key v inner).map fun inner => fs.replace p (.table .dotted inner)
    | some (.table .implied inner) =>
      if ps.isEmpty then none
      else (put? ps key v inner).map fun inner => fs.replace p (.table .implied inner)
    | some (.tables earlier last) =>
      if ps.isEmpty then none
      else (put? ps key v last).map fun last => fs.replace p (.tables earlier last)
    | some (.table .header _) | some (.value _) => none

/-- Changes the table at the end of a path of headers. Tables on the way come about as
implied. -/
def within? (change : Fields → Option Fields) : List String → Fields → Option Fields
  | [], fs => change fs
  | p :: ps, fs =>
    match fs.lookup p with
    | none => (within? change ps []).map fun inner => fs ++ [(p, .table .implied inner)]
    | some (.table origin inner) =>
      (within? change ps inner).map fun inner => fs.replace p (.table origin inner)
    | some (.tables earlier last) =>
      (within? change ps last).map fun last => fs.replace p (.tables earlier last)
    | some (.value _) => none

def openTable? (key : String) (fs : Fields) : Option Fields :=
  match fs.lookup key with
  | none => some (fs ++ [(key, .table .header [])])
  | some (.table .implied inner) => some (fs.replace key (.table .header inner))
  | some _ => none

def openItem? (key : String) (fs : Fields) : Option Fields :=
  match fs.lookup key with
  | none => some (fs ++ [(key, .tables [] [])])
  | some (.tables earlier last) => some (fs.replace key (.tables (earlier ++ [last]) []))
  | some _ => none

end Fields

def sortFields (fields : List (String × Value)) : List (String × Value) :=
  fields.mergeSort fun a b => a.1 ≤ b.1

mutual

/-- A finished part. The fields of a table are put in the order of their names. -/
def Item.toValue : Item → Value
  | .value v => v
  | .table _ fs => .object (sortFields (fieldValues fs))
  | .tables earlier last =>
    .array (tableValues earlier ++ [.object (sortFields (fieldValues last))])

def fieldValues : List (String × Item) → List (String × Value)
  | [] => []
  | (k, i) :: rest => (k, i.toValue) :: fieldValues rest

def tableValues : List (List (String × Item)) → List Value
  | [] => []
  | fs :: rest => .object (sortFields (fieldValues fs)) :: tableValues rest

end

def Fields.toObject (fs : Fields) : List (String × Value) := sortFields (fieldValues fs)

end RuleScout.Toml
