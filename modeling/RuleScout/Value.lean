import RuleScout.Number.Binary64
import RuleScout.Number.Word

/-!
# Option values

The values that a rule's options are made of. Whole numbers and floating point numbers are
different values, and an object keeps its fields in order.
-/

set_option autoImplicit false

namespace RuleScout

inductive Value where
  | null
  | bool (b : Bool)
  | int (n : Int)
  | float (x : Binary64)
  | string (s : String)
  | array (items : List Value)
  | object (fields : List (String × Value))
  deriving Repr, Inhabited

namespace Value

mutual

def same : Value → Value → Bool
  | .null, .null => true
  | .bool a, .bool b => a == b
  | .int a, .int b => a == b
  | .float a, .float b => a == b
  | .string a, .string b => a == b
  | .array a, .array b => sameItems a b
  | .object a, .object b => sameFields a b
  | _, _ => false

def sameItems : List Value → List Value → Bool
  | [], [] => true
  | a :: as, b :: bs => same a b && sameItems as bs
  | _, _ => false

def sameFields : List (String × Value) → List (String × Value) → Bool
  | [], [] => true
  | (k, a) :: as, (l, b) :: bs => k == l && same a b && sameFields as bs
  | _, _ => false

end

mutual

theorem same_refl : ∀ a : Value, same a a = true
  | .null => rfl
  | .bool _ | .int _ | .float _ | .string _ => by simp [same]
  | .array as => by simp [same, sameItems_refl as]
  | .object as => by simp [same, sameFields_refl as]

theorem sameItems_refl : ∀ as : List Value, sameItems as as = true
  | [] => rfl
  | a :: as => by simp [sameItems, same_refl a, sameItems_refl as]

theorem sameFields_refl : ∀ as : List (String × Value), sameFields as as = true
  | [] => rfl
  | (_, a) :: as => by simp [sameFields, same_refl a, sameFields_refl as]

end

mutual

theorem eq_of_same : ∀ a b : Value, same a b = true → a = b
  | .null, b => by cases b <;> simp [same]
  | .bool _, b => by cases b <;> simp [same]
  | .int _, b => by cases b <;> simp [same]
  | .float _, b => by cases b <;> simp [same]
  | .string _, b => by cases b <;> simp [same]
  | .array as, b => by
    cases b with
    | array bs => exact fun h => congrArg _ (eq_of_sameItems as bs (by simpa [same] using h))
    | _ => simp [same]
  | .object as, b => by
    cases b with
    | object bs => exact fun h => congrArg _ (eq_of_sameFields as bs (by simpa [same] using h))
    | _ => simp [same]

theorem eq_of_sameItems : ∀ as bs : List Value, sameItems as bs = true → as = bs
  | [], bs => by cases bs <;> simp [sameItems]
  | a :: as, bs => by
    cases bs with
    | nil => simp [sameItems]
    | cons b bs =>
      intro h
      simp only [sameItems, Bool.and_eq_true] at h
      rw [eq_of_same a b h.1, eq_of_sameItems as bs h.2]

theorem eq_of_sameFields :
    ∀ as bs : List (String × Value), sameFields as bs = true → as = bs
  | [], bs => by cases bs <;> simp [sameFields]
  | (k, a) :: as, bs => by
    cases bs with
    | nil => simp [sameFields]
    | cons lb bs =>
      obtain ⟨l, b⟩ := lb
      intro h
      simp only [sameFields, Bool.and_eq_true, beq_iff_eq] at h
      rw [h.1.1, eq_of_same a b h.1.2, eq_of_sameFields as bs h.2]

end

theorem same_iff {a b : Value} : same a b = true ↔ a = b :=
  ⟨eq_of_same a b, fun h => h ▸ same_refl a⟩

instance : DecidableEq Value := fun _ _ => decidable_of_iff _ same_iff

def field? (v : Value) (key : String) : Option Value :=
  match v with
  | .object fields => fields.lookup key
  | _ => none

def string? : Value → Option String
  | .string s => some s
  | _ => none

def bool? : Value → Option Bool
  | .bool b => some b
  | _ => none

def int64? : Value → Option Int
  | .int n => if Word.fitsSigned n then some n else none
  | _ => none

def ofWord? (n : Int) : Option Value := if Word.fits n then some (.int n) else none

def nat? : Value → Option Nat
  | .int (.ofNat n) => some n
  | _ => none

/-- Puts a field: a new key goes to the end, a known key keeps its place. -/
def putField (fields : List (String × Value)) (key : String) (v : Value) :
    List (String × Value) :=
  if fields.any (·.1 = key) then fields.map fun (k, w) => if k = key then (k, v) else (k, w)
  else fields ++ [(key, v)]

mutual

/-- The value with the fields of every object in the order of their names. -/
def sorted : Value → Value
  | .array vs => .array (sortedItems vs)
  | .object fs => .object ((sortedFields fs).mergeSort fun a b => a.1 ≤ b.1)
  | .null => .null
  | .bool b => .bool b
  | .int n => .int n
  | .float x => .float x
  | .string s => .string s

def sortedItems : List Value → List Value
  | [] => []
  | v :: vs => v.sorted :: sortedItems vs

def sortedFields : List (String × Value) → List (String × Value)
  | [] => []
  | (k, v) :: fs => (k, v.sorted) :: sortedFields fs

end

def ofFields (fields : List (String × Value)) : Value :=
  .object (fields.foldl (fun acc (k, v) => putField acc k v) [])

end Value

end RuleScout
