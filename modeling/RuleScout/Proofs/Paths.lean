import Mathlib.Data.String.Basic
import RuleScout.Files.Tree

/-!
# The pieces of a path

What a text is split into at a single character is known from its characters, and so are the
pieces of a path and the steps that it takes.
-/

set_option autoImplicit false

namespace RuleScout

open String

/-- With a separator of one character there is nothing to go back to. -/
theorem splitOnAux_singleton (s : String) (c : Char) (b i : Pos.Raw) (r : List String) :
    splitOnAux s (singleton c) b i 0 r = splitAux s (· == c) b i r := by
  have hFirst : Pos.Raw.get (singleton c) 0 = c := by simp [Pos.Raw.get, Pos.Raw.utf8GetAux]
  fun_induction splitAux s (· == c) b i r with
  | case1 b i r hEnd parts => rw [splitOnAux, if_pos hEnd]
  | case2 b i r hEnd hLt hChar next ih =>
    have hWhole : (Pos.Raw.next (singleton c) 0).atEnd (singleton c) = true := by
      simp [Pos.Raw.next, hFirst, Pos.Raw.atEnd]
    have hBack : (Pos.Raw.next s i).unoffsetBy (Pos.Raw.next (singleton c) 0) = i := by
      rw [beq_iff_eq] at hChar
      simp [Pos.Raw.next, hChar, hFirst, Pos.Raw.unoffsetBy]
    rw [splitOnAux, if_neg hEnd, hFirst, if_pos hChar]
    simp only [hWhole, if_true, hBack]
    exact ih
  | case3 b i r hEnd hLt hChar ih =>
    rw [splitOnAux, if_neg hEnd, hFirst, if_neg hChar]
    exact ih

theorem splitOn_singleton (s : String) (c : Char) :
    s.splitOn (singleton c) = (s.toList.splitOnP (· == c)).map ofList := by
  have hNonempty : ¬(singleton c == "") = true := by simp
  rw [splitOn, if_neg hNonempty, splitOnAux_singleton]
  exact splitToList_of_valid s _

namespace Path

theorem pieces_eq (path : String) :
    pieces path = ((path.toList.splitOnP (· == '/')).map ofList).filter (· ≠ "") := by
  rw [← splitOn_singleton]
  rfl

theorem extension?_of_pieces {path name stem extension : String}
    (hName : fileName? path = some name)
    (hPieces : (name.toList.splitOnP (· == '.')).map ofList = [stem, extension])
    (hStem : stem ≠ "") : extension? path = some extension := by
  have hSplit : name.splitOn "." = [stem, extension] := (splitOn_singleton name '.').trans hPieces
  rw [extension?, hName, Option.bind_eq_bind, Option.bind_some, hSplit]
  split
  · rename_i hEq
    cases hEq
  · rename_i hEq
    cases hEq
    exact absurd rfl hStem
  · rfl

end Path

theorem FileTree.steps_eq (path : String) :
    steps path = ((path.toList.splitOnP (· == '/')).map ofList).filter (· ≠ "") ++
      (if path.endsWith "/" then ["."] else []) := by
  rw [steps, Path.pieces_eq]

end RuleScout
