import RuleScout.Value
import RuleScout.Yaml.Node
import RuleScout.Yaml.Scalar

/-!
# The value of a YAML node

What a node stands for depends on what is expected of it. Where a text is expected, any scalar
gives its characters; where anything may stand, a plain scalar may be null, a truth value or a
number. A value that is not there is an empty list, mapping or record.
-/

set_option autoImplicit false

namespace RuleScout.Yaml

inductive Shape where
  /-- Any value. The keys of its mappings are taken as text. -/
  | any
  /-- Any value whose mappings have only keys that are text by themselves. -/
  | strict
  | text
  | flag
  | list (item : Shape)
  | table (item : Shape)
  | optional (present : Shape)
  | record (fields : List (String × Shape))
  deriving Repr

def deepest : Nat := 128

def isLocalTag (tag : Option String) : Bool := tag.any (·.startsWith "!")

/-- A floating point number as a value. Those that are not finite have none and give null. -/
def floatValue (x : Binary64) : Value := if x.isFinite then .float x else .null

def plainValue? (s : String) : Option Value :=
  match meaning s with
  | .null => some .null
  | .bool b => some (.bool b)
  | .int n => Value.ofWord? n
  | .float x => some (floatValue x)
  | .text => some (.string s)

def scalarValue? (tag : Option String) (form : ScalarForm) (s : String) : Option Value :=
  match tag with
  | none => if form = .plain then plainValue? s else some (.string s)
  | some tag =>
    if tag.startsWith "!" then none
    else if tag = coreTag "bool" then (bool? s).map .bool
    else if tag = coreTag "int" then (int? s.toList).bind Value.ofWord?
    else if tag = coreTag "float" then (float? s).map floatValue
    else if tag = coreTag "null" then if isNull s && s ≠ "" then some .null else none
    else some (.string s)

def isVoid (form : ScalarForm) (s : String) : Bool := form = .plain && s = ""

def isMissing? (tag : Option String) (form : ScalarForm) (s : String) : Option Bool :=
  if form ≠ .plain then some false
  else
    match tag with
    | none => some (isNull s)
    | some tag =>
      if tag = coreTag "null" then if isNull s && s ≠ "" then some true else none
      else some false

def flagOf? (tag : Option String) (form : ScalarForm) (s : String) : Option Value :=
  if form = .plain || (form = .literal && tag = some (coreTag "bool")) then (bool? s).map .bool
  else none

namespace Shape

def scalar? : Shape → Option String → ScalarForm → String → Option Value
  | .any, tag, form, s | .strict, tag, form, s => scalarValue? tag form s
  | .text, _, _, s => some (.string s)
  | .flag, tag, form, s => flagOf? tag form s
  | .list _, _, form, s => if isVoid form s then some (.array []) else none
  | .table _, _, form, s | .record _, _, form, s =>
    if isVoid form s then some (.object []) else none
  | .optional shape, tag, form, s =>
    match isMissing? tag form s with
    | none => none
    | some true => some .null
    | some false => shape.scalar? tag form s

def item? : Shape → Option String → Option Shape
  | .any, tag => if isLocalTag tag then none else some .any
  | .strict, tag => if isLocalTag tag then none else some .strict
  | .list shape, _ => some shape
  | .optional shape, tag => shape.item? tag
  | _, _ => none

inductive Fields where
  | free (shape : Shape)
  | strict
  | known (fields : List (String × Shape))

def fields? : Shape → Option String → Option Fields
  | .any, tag => if isLocalTag tag then none else some (.free .any)
  | .strict, tag => if isLocalTag tag then none else some .strict
  | .table shape, _ => some (.free shape)
  | .record fields, _ => some (.known fields)
  | .optional shape, tag => shape.fields? tag
  | _, _ => none

def Fields.key? : Fields → Node → Option String
  | .strict, .scalar tag form s => (scalarValue? tag form s).bind Value.string?
  | _, .scalar _ _ s => some s
  | _, _ => none

/-- What is expected of the field with this key; unknown fields of a record have no say. -/
def Fields.shape? : Fields → String → Option Shape
  | .free shape, _ => some shape
  | .strict, _ => some .strict
  | .known fields, key => fields.lookup key

end Shape

mutual

def Node.value? (room : Nat) (shape : Shape) : Node → Option Value
  | .scalar tag form s => shape.scalar? tag form s
  | .list tag items =>
    if room = 0 then none
    else
      match shape.item? tag with
      | none => none
      | some item => (itemValues? (room - 1) item items).map .array
  | .mapping tag fields =>
    if room = 0 then none
    else
      match shape.fields? tag with
      | none => none
      | some expected =>
        (fieldValues? (room - 1) expected fields).map fun fs =>
          match expected with
          | .known _ => .object fs
          | _ => .ofFields fs

def itemValues? (room : Nat) (shape : Shape) : List Node → Option (List Value)
  | [] => some []
  | n :: ns => do return (← n.value? room shape) :: (← itemValues? room shape ns)

def fieldValues? (room : Nat) (expected : Shape.Fields) :
    List (Node × Node) → Option (List (String × Value))
  | [] => some []
  | (k, n) :: rest => do
    let key ← expected.key? k
    match expected.shape? key with
    | none => fieldValues? room expected rest
    | some shape => return (key, ← n.value? room shape) :: (← fieldValues? room expected rest)

end

end RuleScout.Yaml
