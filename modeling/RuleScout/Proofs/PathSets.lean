import Mathlib.Data.List.Lex
import Mathlib.Data.List.Sort
import Mathlib.Data.Prod.Lex
import Mathlib.Data.String.Basic
import RuleScout.Files.Selection

/-!
# Sets of paths

Paths are ordered by their parts, and two spellings with the same parts name the same place. A set
of paths is kept in this order with one spelling for each place, the one that came first.
-/

set_option autoImplicit false

namespace RuleScout.Path

/-! ## The order of paths -/

namespace Part

def key (a : Part) : ℕ ×ₗ String := toLex (a.rank, a.text)

theorem key_injective : Function.Injective key := by
  intro a b h
  obtain ⟨hRank, hText⟩ := Prod.mk.inj h
  cases a <;> cases b <;> simp_all [rank, text]

instance : LinearOrder Part := LinearOrder.lift' key key_injective

theorem before_iff (a b : Part) : a.before b = true ↔ a < b := by
  have hKey : a < b ↔ a.key < b.key := Iff.rfl
  rw [hKey, key, key, Prod.Lex.toLex_lt_toLex]
  simp [before]

end Part

theorem partsLe_iff (as bs : List Part) : partsLe as bs = true ↔ as ≤ bs := by
  rw [← not_lt]
  induction as generalizing bs with
  | nil => simp [partsLe]
  | cons a as ih =>
    cases bs with
    | nil => simp [partsLe]
    | cons b bs =>
      rw [partsLe, List.cons_lt_cons_iff]
      split
      · rename_i hEq
        simp [hEq, ih]
      · rename_i hNe
        simp [Ne.symm hNe, Part.before_iff, lt_iff_le_and_ne, hNe]

theorem le_iff (a b : String) : le a b = true ↔ parts a ≤ parts b := partsLe_iff _ _

theorem same_iff (a b : String) : same a b = true ↔ parts a = parts b := decide_eq_true_iff

/-! ## Spellings -/

/-- The first spelling of a place in a list of paths. -/
def spelling? (paths : List String) (place : List Part) : Option String :=
  paths.find? fun path => parts path = place

variable {path : String} {paths set set' : List String} {place : List Part}

theorem spelling?_nil (place : List Part) : spelling? [] place = none := rfl

theorem spelling?_cons (path : String) (paths : List String) (place : List Part) :
    spelling? (path :: paths) place =
      if parts path = place then some path else spelling? paths place := by
  rw [spelling?, List.find?_cons]
  split <;> simp_all [spelling?]

theorem spelling?_append (paths more : List String) (place : List Part) :
    spelling? (paths ++ more) place = (spelling? paths place).or (spelling? more place) :=
  List.find?_append

theorem parts_of_spelling? (h : spelling? paths place = some path) : parts path = place := by
  simpa using List.find?_some h

theorem mem_of_spelling? (h : spelling? paths place = some path) : path ∈ paths :=
  List.mem_of_find?_eq_some h

theorem exists_spelling? (h : place ∈ paths.map parts) :
    ∃ path, spelling? paths place = some path := by
  obtain ⟨path, hPath, hPlace⟩ := List.mem_map.mp h
  rw [← Option.isSome_iff_exists, spelling?, List.find?_isSome]
  exact ⟨path, hPath, decide_eq_true hPlace⟩

/-! ## Sets -/

/-- In the order of paths, and with one spelling for each place. -/
def Ascending (set : List String) : Prop := set.Pairwise fun a b => parts a < parts b

namespace Ascending

theorem spelling?_eq_some_iff (h : Ascending set) :
    spelling? set (parts path) = some path ↔ path ∈ set := by
  refine ⟨mem_of_spelling?, fun hMem => ?_⟩
  induction set with
  | nil => cases hMem
  | cons first set ih =>
    obtain ⟨hBehind, hSet⟩ := List.pairwise_cons.mp h
    rcases List.mem_cons.mp hMem with rfl | hMem
    · exact List.find?_cons_of_pos (decide_eq_true rfl)
    · rw [spelling?, List.find?_cons_of_neg (by simpa using (hBehind path hMem).ne)]
      exact ih hSet hMem

/-- A set is known by its places. -/
theorem map_parts_eq (h : Ascending set) (h' : Ascending set')
    (hSame : ∀ place, place ∈ set.map parts ↔ place ∈ set'.map parts) :
    set.map parts = set'.map parts := by
  have hSorted : (set.map parts).Pairwise (· < ·) := List.pairwise_map.mpr h
  have hSorted' : (set'.map parts).Pairwise (· < ·) := List.pairwise_map.mpr h'
  exact hSorted.eq_of_mem_iff hSorted' hSame

end Ascending

theorem mem_insertPath {q : String} {set : List String} (hMem : q ∈ insertPath path set) :
    q = path ∨ q ∈ set := by
  induction set with
  | nil => exact .inl (List.mem_singleton.mp hMem)
  | cons first set ih =>
    rw [insertPath] at hMem
    split at hMem
    · exact .inr hMem
    · split at hMem
      · exact List.mem_cons.mp hMem
      · rcases List.mem_cons.mp hMem with rfl | hRest
        · exact .inr List.mem_cons_self
        · exact (ih hRest).imp_right (List.mem_cons_of_mem _)

theorem mem_insertAll {q : String} {set paths : List String} (hMem : q ∈ insertAll set paths) :
    q ∈ set ∨ q ∈ paths := by
  induction paths generalizing set with
  | nil => exact .inl hMem
  | cons path paths ih =>
    rcases ih hMem with hSet | hPaths
    · rcases mem_insertPath hSet with rfl | hSet
      · exact .inr List.mem_cons_self
      · exact .inl hSet
    · exact .inr (List.mem_cons_of_mem _ hPaths)

theorem Ascending.lt_of_lt_head {first : String} (h : Ascending (first :: set))
    (hLt : parts path < parts first) : ∀ q ∈ first :: set, parts path < parts q :=
  List.forall_mem_cons.mpr ⟨hLt, fun q hq => hLt.trans ((List.pairwise_cons.mp h).1 q hq)⟩

theorem Ascending.insertPath (h : Ascending set) (path : String) :
    Ascending (insertPath path set) := by
  induction set with
  | nil => exact List.pairwise_singleton _ _
  | cons first set ih =>
    obtain ⟨hBehind, hSet⟩ := List.pairwise_cons.mp h
    rw [Path.insertPath]
    split
    · exact h
    · rename_i hOther
      rw [same_iff] at hOther
      split
      · rename_i hLe
        rw [le_iff] at hLe
        exact List.pairwise_cons.mpr ⟨h.lt_of_lt_head (lt_of_le_of_ne hLe hOther), h⟩
      · rename_i hBefore
        rw [le_iff, not_le] at hBefore
        refine List.pairwise_cons.mpr ⟨fun q hq => ?_, ih hSet⟩
        rcases mem_insertPath hq with rfl | hq
        · exact hBefore
        · exact hBehind q hq

/-- An inserted path is the spelling of its place, unless the place has one already. -/
theorem spelling?_insertPath (h : Ascending set) (path : String) (place : List Part) :
    spelling? (insertPath path set) place = (spelling? set place).or (spelling? [path] place) := by
  induction set with
  | nil => rw [insertPath, spelling?_nil, Option.none_or]
  | cons first set ih =>
    rw [insertPath]
    by_cases hPlace : parts path = place
    · subst hPlace
      rw [spelling?_cons path [], if_pos rfl]
      split
      · rename_i hSame
        rw [same_iff] at hSame
        rw [spelling?_cons, if_pos hSame.symm, Option.some_or]
      · rename_i hOther
        rw [same_iff] at hOther
        split
        · rename_i hLe
          -- all of the set stands behind the new path
          rw [le_iff] at hLe
          have hNone : spelling? (first :: set) (parts path) = none := by
            rw [spelling?, List.find?_eq_none]
            intro q hq
            simpa using (h.lt_of_lt_head (lt_of_le_of_ne hLe hOther) q hq).ne'
          rw [spelling?_cons, if_pos rfl, hNone, Option.none_or]
        · rw [spelling?_cons first, spelling?_cons first, if_neg (Ne.symm hOther),
            if_neg (Ne.symm hOther), ih (List.pairwise_cons.mp h).2, spelling?_cons path [],
            if_pos rfl]
    · rw [spelling?_cons path [], if_neg hPlace, spelling?_nil, Option.or_none]
      split
      · rfl
      · split
        · rw [spelling?_cons path, if_neg hPlace]
        · rw [spelling?_cons, ih (List.pairwise_cons.mp h).2, spelling?_cons path [],
            if_neg hPlace, spelling?_nil, Option.or_none, spelling?_cons]

theorem Ascending.insertAll (h : Ascending set) (paths : List String) :
    Ascending (insertAll set paths) := by
  induction paths generalizing set with
  | nil => exact h
  | cons path paths ih => exact ih (h.insertPath path)

/-- Of the spellings of a place the first one is kept. -/
theorem spelling?_insertAll (h : Ascending set) (paths : List String) (place : List Part) :
    spelling? (insertAll set paths) place = (spelling? set place).or (spelling? paths place) := by
  induction paths generalizing set with
  | nil => rw [spelling?_nil, Option.or_none, insertAll, List.foldl_nil]
  | cons path paths ih =>
    have hNext := ih (h.insertPath path)
    rw [spelling?_insertPath h, Option.or_assoc, ← spelling?_append] at hNext
    exact hNext

theorem insertAll_append (set paths more : List String) :
    insertAll set (paths ++ more) = insertAll (insertAll set paths) more :=
  List.foldl_append

end RuleScout.Path
