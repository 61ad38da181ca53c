/-!
# The extent of text in bytes

Offsets into a text count the bytes of its UTF-8 form. Text is handled as a list of
characters, so an offset is the extent of the characters before it and can never fall inside
a character.
-/

set_option autoImplicit false

namespace RuleScout.Text

def extent : List Char → Nat
  | [] => 0
  | c :: cs => c.utf8Size + extent cs

@[simp] theorem extent_nil : extent [] = 0 := rfl

@[simp] theorem extent_cons (c : Char) (cs : List Char) :
    extent (c :: cs) = c.utf8Size + extent cs := rfl

@[simp] theorem extent_append (xs ys : List Char) :
    extent (xs ++ ys) = extent xs + extent ys := by
  induction xs with
  | nil => simp
  | cons c cs ih => simp [ih, Nat.add_assoc]

theorem extent_toList (s : String) : extent s.toList = s.utf8ByteSize := by
  suffices hChars : ∀ cs : List Char, extent cs = (String.ofList cs).utf8ByteSize by
    rw [hChars, String.ofList_toList]
  intro cs
  induction cs with
  | nil => rfl
  | cons c cs ih =>
    rw [extent_cons, ih, ← List.singleton_append, String.ofList_append, String.utf8ByteSize_append,
      ← String.singleton_eq_ofList, String.utf8ByteSize_singleton]

/-- The longest initial part that fits into the given number of bytes. -/
def takeExtent : Nat → List Char → List Char
  | _, [] => []
  | n, c :: cs => if c.utf8Size ≤ n then c :: takeExtent (n - c.utf8Size) cs else []

theorem takeExtent_extent_append (xs ys : List Char) :
    takeExtent (extent xs) (xs ++ ys) = xs := by
  induction xs with
  | nil => cases ys with
    | nil => rfl
    | cons c cs => simp [takeExtent, Nat.not_le.mpr c.utf8Size_pos]
  | cons c cs ih => simp [takeExtent, ih]

end RuleScout.Text
