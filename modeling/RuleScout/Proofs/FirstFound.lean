import Mathlib.Data.List.Basic

/-!
# The first one that is found

A search through a list that is in order finds what comes first in that order.
-/

set_option autoImplicit false

namespace RuleScout

variable {α β : Type} {R : α → α → Prop} {q : α → Bool} {xs : List α} {x y : α}

/-- In a list whose later members are related to the earlier ones, the first one with a result is
related to all others that have one. -/
theorem exists_of_findSome?_pairwise {f : α → Option β} {b : β} (hRefl : ∀ x, R x x)
    (hPairwise : xs.Pairwise R) (h : xs.findSome? f = some b) :
    ∃ x ∈ xs, f x = some b ∧ ∀ y ∈ xs, (f y).isSome → R x y := by
  obtain ⟨before, x, behind, rfl, hx, hBefore⟩ := List.findSome?_eq_some_iff.mp h
  refine ⟨x, by simp, hx, fun y hy hSome => ?_⟩
  rcases List.mem_append.mp hy with hFirst | hLater
  · rw [hBefore y hFirst] at hSome
    cases hSome
  · rcases List.mem_cons.mp hLater with rfl | hLater
    · exact hRefl y
    · have hRest := (List.pairwise_append.mp hPairwise).2.1
      exact List.rel_of_pairwise_cons hRest hLater

theorem rel_of_find?_pairwise (hRefl : ∀ x, R x x) (hPairwise : xs.Pairwise R)
    (h : xs.find? q = some x) (hMem : y ∈ xs) (hy : q y = true) : R x y := by
  rw [← List.findSome?_guard] at h
  obtain ⟨z, -, hz, hFirst⟩ := exists_of_findSome?_pairwise hRefl hPairwise h
  obtain ⟨rfl, -⟩ := Option.guard_eq_some_iff.mp hz
  exact hFirst y hMem (by simp [Option.guard, hy])

theorem find?_idxOf_le [DecidableEq α] (h : xs.find? q = some x) (hy : q y = true) :
    xs.idxOf x ≤ xs.idxOf y := by
  obtain ⟨hx, before, behind, rfl, hBefore⟩ := List.find?_eq_some_iff_append.mp h
  have hNot {z : α} (hz : q z = true) : z ∉ before := by
    intro hMem
    have hOther := hBefore z hMem
    rw [hz] at hOther
    cases hOther
  rw [List.idxOf_append_of_notMem (hNot hx), List.idxOf_append_of_notMem (hNot hy),
    List.idxOf_cons_self]
  exact Nat.le_add_right _ _

end RuleScout
