import Mathlib.Data.List.Sort
import Mathlib.Order.Lattice.Nat
import RuleScout.Proofs.Fallible
import RuleScout.Source.Unit

/-!
# Steps between significant tokens

From any index a step leads to the nearest significant token on one side. The indices of these
tokens are listed in order, so a bisection of the list comes to the same token as a look at one
index after the other. Between significant tokens a step forward and a step back undo each other,
and steps forward from the first one come by each of them once and end behind the last.
-/

set_option autoImplicit false

namespace RuleScout

variable {p : Nat → Bool} {xs : List Nat} {base size m n x y : Nat}

/-! ## Bisection -/

/-- The number of elements that satisfy `p`, where these come first. Of the `size` elements from
`base` on, one half is given up as long as there are two. -/
def bisectFrom (p : Nat → Bool) (xs : List Nat) (base size : Nat) : Nat :=
  if 1 < size then
    bisectFrom p xs (if xs[base + size / 2]?.any p then base + size / 2 else base)
      (size - size / 2)
  else if xs[base]?.any p then base + 1 else base
termination_by size
decreasing_by omega

def bisect (p : Nat → Bool) (xs : List Nat) : Nat := bisectFrom p xs 0 xs.length

/-- The first `n` elements satisfy `p`, and no others do. -/
structure IsBorder (p : Nat → Bool) (xs : List Nat) (n : Nat) : Prop where
  le_length : n ≤ xs.length
  iff_lt : ∀ m x, xs[m]? = some x → (p x = true ↔ m < n)

/-- What is settled in front of the elements that are left, and behind them. -/
structure Narrowed (p : Nat → Bool) (xs : List Nat) (base size : Nat) : Prop where
  le_length : base + size ≤ xs.length
  holds : ∀ m x, xs[m]? = some x → m < base → p x = true
  fails : ∀ m x, xs[m]? = some x → base + size ≤ m → p x = false

theorem le_iff_of_sorted (h : xs.SortedLT) (hx : xs[m]? = some x) (hy : xs[n]? = some y) :
    x ≤ y ↔ m ≤ n := by
  obtain ⟨hm, rfl⟩ := List.getElem?_eq_some_iff.mp hx
  obtain ⟨hn, rfl⟩ := List.getElem?_eq_some_iff.mp hy
  exact h.getElem_le_getElem_iff

section Bisection

variable (hSorted : xs.SortedLT) (hDown : ∀ x y, x ≤ y → p y = true → p x = true)
include hSorted hDown

theorem holds_of_le (hmn : m ≤ n) (hx : xs[m]? = some x) (hy : xs[n]? = some y)
    (hp : p y = true) : p x = true :=
  hDown x y ((le_iff_of_sorted hSorted hx hy).mpr hmn) hp

theorem Narrowed.step (h : Narrowed p xs base size) (hSize : 1 < size) :
    Narrowed p xs (if xs[base + size / 2]?.any p then base + size / 2 else base)
      (size - size / 2) := by
  obtain ⟨hLength, hHolds, hFails⟩ := h
  have hMiddle : base + size / 2 < xs.length := by omega
  have hy : xs[base + size / 2]? = some xs[base + size / 2] := List.getElem?_eq_getElem hMiddle
  rw [hy, Option.any_some]
  cases hp : p xs[base + size / 2] with
  | true =>
    rw [if_pos rfl]
    constructor
    case le_length => omega
    case holds =>
      intro m x hx hm
      exact holds_of_le hSorted hDown (Nat.le_of_lt hm) hx hy hp
    case fails =>
      intro m x hx hm
      exact hFails m x hx (by omega)
  | false =>
    rw [if_neg Bool.false_ne_true]
    constructor
    case le_length => omega
    case holds => exact hHolds
    case fails =>
      intro m x hx hm
      by_contra hNot
      have hpx : p x = true := Bool.eq_true_of_not_eq_false hNot
      rw [holds_of_le hSorted hDown (by omega) hy hx hpx] at hp
      cases hp

theorem Narrowed.isBorder (h : Narrowed p xs base size) :
    IsBorder p xs (bisectFrom p xs base size) := by
  fun_induction bisectFrom p xs base size with
  | case1 base size hSize ih => exact ih (h.step hSorted hDown hSize)
  | case2 base size hSize hAny =>
    obtain ⟨y, hy, hp⟩ := (Option.any_eq_true _ _).mp hAny
    obtain ⟨hLt, -⟩ := List.getElem?_eq_some_iff.mp hy
    refine ⟨hLt, fun m x hx => ⟨fun hpx => ?_, fun hm => ?_⟩⟩
    · by_contra hNot
      rw [h.fails m x hx (by omega)] at hpx
      cases hpx
    · exact holds_of_le hSorted hDown (Nat.le_of_lt_succ hm) hx hy hp
  | case3 base size hSize hAny =>
    have hLength := h.le_length
    refine ⟨by omega, fun m x hx => ⟨fun hpx => ?_, h.holds m x hx⟩⟩
    by_contra hNot
    obtain ⟨hLt, -⟩ := List.getElem?_eq_some_iff.mp hx
    -- an element further on would bring along the one just looked at
    have hy : xs[base]? = some xs[base] := List.getElem?_eq_getElem (by omega)
    have hHere := holds_of_le hSorted hDown (Nat.not_lt.mp hNot) hy hx hpx
    exact hAny ((Option.any_eq_true _ _).mpr ⟨_, hy, hHere⟩)

theorem isBorder_bisect : IsBorder p xs (bisect p xs) := by
  apply Narrowed.isBorder hSorted hDown
  constructor
  case le_length => omega
  case holds =>
    intro m x _ hm
    omega
  case fails =>
    intro m x hx hm
    obtain ⟨hLt, -⟩ := List.getElem?_eq_some_iff.mp hx
    omega

end Bisection

/-! ## Searches in sets -/

theorem search_eq_none_iff {o : Option Nat} {s : Set Nat} {P : Nat → Prop}
    (h : ∀ j, o = some j ↔ P j) (hMem : ∀ j, P j → j ∈ s) (hExists : s.Nonempty → ∃ j, P j) :
    o = none ↔ s = ∅ := by
  constructor
  · rintro rfl
    by_contra hSome
    obtain ⟨j, hj⟩ := hExists (Set.nonempty_iff_ne_empty.mpr hSome)
    cases (h j).mpr hj
  · rintro rfl
    rw [Option.eq_none_iff_forall_ne_some]
    exact fun j hj => hMem j ((h j).mp hj)

namespace SourceUnit

variable {u : SourceUnit} {i j k : Nat}

/-! ## One step -/

/-- The indices of the tokens that are not trivia. -/
def codeIndices (u : SourceUnit) : Set Nat :=
  {k | ∃ t, u.token? k = some t ∧ t.kind.isTrivia = false}

def prevByBisection (u : SourceUnit) (i : Nat) : Option Nat :=
  match bisect (fun k => k < i) u.significant with
  | 0 => none
  | n + 1 => u.significant[n]?

def nextByBisection (u : SourceUnit) (i : Nat) : Option Nat :=
  u.significant[bisect (fun k => k ≤ i) u.significant]?

theorem isSignificant_iff : u.isSignificant k = true ↔ k ∈ u.codeIndices := by
  rw [isSignificant, Option.any_eq_true]
  simp only [codeIndices, Set.mem_ofPred_eq, Lexeme.isSignificant, Bool.not_eq_true']

theorem ne_of_mem_codeIndices (hAt : u.isSignificant i = false) (hk : k ∈ u.codeIndices) :
    k ≠ i := by
  rintro rfl
  rw [isSignificant_iff.mpr hk] at hAt
  cases hAt

theorem lt_size_of_mem (hk : k ∈ u.codeIndices) : k < u.tokens.size := by
  obtain ⟨t, ht, -⟩ := hk
  exact (Array.getElem?_eq_some_iff.mp ht).1

theorem mem_significant_iff : k ∈ u.significant ↔ k ∈ u.codeIndices := by
  rw [significant, List.mem_filter, List.mem_range, isSignificant_iff]
  exact and_iff_right_of_imp lt_size_of_mem

theorem sorted_significant (u : SourceUnit) : u.significant.SortedLT :=
  (List.pairwise_lt_range.filter _).sortedLT

theorem lastBelow_eq_some_iff :
    u.lastBelow i = some j ↔ IsGreatest (u.codeIndices ∩ Set.Iio i) j := by
  induction i with
  | zero =>
    constructor
    · nofun
    · rintro ⟨⟨-, hj⟩, -⟩
      exact absurd hj (Nat.not_lt_zero j)
  | succ i ih =>
    rw [lastBelow]
    cases hAt : u.isSignificant i with
    | true =>
      have hTop : IsGreatest (u.codeIndices ∩ Set.Iio (i + 1)) i :=
        ⟨⟨isSignificant_iff.mp hAt, Nat.lt_succ_self i⟩, fun k hk => Nat.le_of_lt_succ hk.2⟩
      rw [if_pos rfl, Option.some_inj]
      exact ⟨fun hij => hij ▸ hTop, hTop.unique⟩
    | false =>
      have hSame : u.codeIndices ∩ Set.Iio (i + 1) = u.codeIndices ∩ Set.Iio i := by
        ext k
        apply and_congr_right
        intro hk
        have hNe := ne_of_mem_codeIndices hAt hk
        rw [Set.mem_Iio, Set.mem_Iio]
        omega
      rw [if_neg Bool.false_ne_true, ih, hSame]

theorem firstFrom_eq_some_iff :
    u.firstFrom n i = some j ↔ IsLeast (u.codeIndices ∩ Set.Ico i (i + n)) j := by
  induction n generalizing i with
  | zero =>
    constructor
    · nofun
    · rintro ⟨⟨-, hij, hj⟩, -⟩
      omega
  | succ n ih =>
    rw [firstFrom]
    cases hAt : u.isSignificant i with
    | true =>
      have hBottom : IsLeast (u.codeIndices ∩ Set.Ico i (i + (n + 1))) i :=
        ⟨⟨isSignificant_iff.mp hAt, Nat.le_refl i, by omega⟩, fun k hk => hk.2.1⟩
      rw [if_pos rfl, Option.some_inj]
      exact ⟨fun hij => hij ▸ hBottom, hBottom.unique⟩
    | false =>
      have hSame : u.codeIndices ∩ Set.Ico i (i + (n + 1)) =
          u.codeIndices ∩ Set.Ico (i + 1) (i + 1 + n) := by
        ext k
        apply and_congr_right
        intro hk
        have hNe := ne_of_mem_codeIndices hAt hk
        rw [Set.mem_Ico, Set.mem_Ico]
        omega
      rw [if_neg Bool.false_ne_true, ih, hSame]

theorem prevSignificant_eq_some_iff :
    u.prevSignificant i = some j ↔ IsGreatest (u.codeIndices ∩ Set.Iio i) j := by
  have hSame : u.codeIndices ∩ Set.Iio (min i u.tokens.size) = u.codeIndices ∩ Set.Iio i := by
    ext k
    apply and_congr_right
    intro hk
    exact Nat.lt_min.trans (and_iff_left (lt_size_of_mem hk))
  rw [prevSignificant, lastBelow_eq_some_iff, hSame]

theorem nextSignificant_eq_some_iff :
    u.nextSignificant i = some j ↔ IsLeast (u.codeIndices ∩ Set.Ioi i) j := by
  have hSame : u.codeIndices ∩ Set.Ico (i + 1) (i + 1 + (u.tokens.size - (i + 1))) =
      u.codeIndices ∩ Set.Ioi i := by
    ext k
    apply and_congr_right
    intro hk
    have hLt := lt_size_of_mem hk
    rw [Set.mem_Ico, Set.mem_Ioi]
    omega
  rw [nextSignificant, firstFrom_eq_some_iff, hSame]

theorem prevSignificant_eq_none_iff :
    u.prevSignificant i = none ↔ u.codeIndices ∩ Set.Iio i = ∅ := by
  apply search_eq_none_iff (fun j => prevSignificant_eq_some_iff) (fun j hj => hj.1)
  intro hSome
  have hBound : BddAbove (u.codeIndices ∩ Set.Iio i) := ⟨i, fun k hk => Nat.le_of_lt hk.2⟩
  exact ⟨_, Nat.sSup_mem hSome hBound, fun k hk => le_csSup hBound hk⟩

theorem nextSignificant_eq_none_iff :
    u.nextSignificant i = none ↔ u.codeIndices ∩ Set.Ioi i = ∅ := by
  apply search_eq_none_iff (fun j => nextSignificant_eq_some_iff) (fun j hj => hj.1)
  intro hSome
  exact ⟨_, Nat.sInf_mem hSome, fun k hk => Nat.sInf_le hk⟩

/-! ## One step in the list -/

theorem exists_place (hk : k ∈ u.codeIndices) : ∃ m : Nat, u.significant[m]? = some k :=
  List.mem_iff_getElem?.mp (mem_significant_iff.mpr hk)

theorem mem_codeIndices (h : u.significant[m]? = some k) : k ∈ u.codeIndices :=
  mem_significant_iff.mp (List.mem_of_getElem? h)

theorem place_le_iff (hx : u.significant[m]? = some x) (hy : u.significant[n]? = some y) :
    x ≤ y ↔ m ≤ n :=
  le_iff_of_sorted u.sorted_significant hx hy

theorem isBorder_lt (u : SourceUnit) (i : Nat) :
    IsBorder (fun k => k < i) u.significant (bisect (fun k => k < i) u.significant) := by
  apply isBorder_bisect u.sorted_significant
  intro x y hxy hy
  exact decide_eq_true (Nat.lt_of_le_of_lt hxy (of_decide_eq_true hy))

theorem isBorder_le (u : SourceUnit) (i : Nat) :
    IsBorder (fun k => k ≤ i) u.significant (bisect (fun k => k ≤ i) u.significant) := by
  apply isBorder_bisect u.sorted_significant
  intro x y hxy hy
  exact decide_eq_true (Nat.le_trans hxy (of_decide_eq_true hy))

theorem prevByBisection_eq_some_iff :
    u.prevByBisection i = some j ↔ IsGreatest (u.codeIndices ∩ Set.Iio i) j := by
  obtain ⟨hLength, hBorder⟩ := u.isBorder_lt i
  simp only [decide_eq_true_eq] at hBorder
  rw [prevByBisection]
  generalize bisect (fun k => k < i) u.significant = border at hLength hBorder ⊢
  cases border with
  | zero =>
    constructor
    · nofun
    · rintro ⟨⟨hj, hji⟩, -⟩
      obtain ⟨m, hm⟩ := exists_place hj
      exact absurd ((hBorder m j hm).mp hji) (Nat.not_lt_zero m)
  | succ n =>
    have hx : u.significant[n]? = some u.significant[n] := List.getElem?_eq_getElem hLength
    have hTop : IsGreatest (u.codeIndices ∩ Set.Iio i) u.significant[n] := by
      refine ⟨⟨mem_codeIndices hx, (hBorder n _ hx).mpr (Nat.lt_succ_self n)⟩, ?_⟩
      rintro k ⟨hk, hki⟩
      obtain ⟨m, hm⟩ := exists_place hk
      exact (place_le_iff hm hx).mpr (Nat.le_of_lt_succ ((hBorder m k hm).mp hki))
    change u.significant[n]? = some j ↔ _
    rw [hx, Option.some_inj]
    exact ⟨fun hj => hj ▸ hTop, hTop.unique⟩

theorem nextByBisection_eq_some_iff :
    u.nextByBisection i = some j ↔ IsLeast (u.codeIndices ∩ Set.Ioi i) j := by
  obtain ⟨-, hBorder⟩ := u.isBorder_le i
  simp only [decide_eq_true_eq] at hBorder
  have hBeyond {m x : Nat} (hx : u.significant[m]? = some x) :
      i < x ↔ bisect (fun k => k ≤ i) u.significant ≤ m := by
    have hEither := hBorder m x hx
    omega
  have hBottom {x : Nat} (hx : u.nextByBisection i = some x) :
      IsLeast (u.codeIndices ∩ Set.Ioi i) x := by
    refine ⟨⟨mem_codeIndices hx, (hBeyond hx).mpr (Nat.le_refl _)⟩, ?_⟩
    rintro k ⟨hk, hik⟩
    obtain ⟨m, hm⟩ := exists_place hk
    exact (place_le_iff hx hm).mpr ((hBeyond hm).mp hik)
  refine ⟨hBottom, fun hj => ?_⟩
  -- where something is left behind the border, something stands at it
  obtain ⟨m, hm⟩ := exists_place hj.1.1
  obtain ⟨hLt, -⟩ := List.getElem?_eq_some_iff.mp hm
  have hFound := List.getElem?_eq_getElem (Nat.lt_of_le_of_lt ((hBeyond hm).mp hj.1.2) hLt)
  rw [nextByBisection, hFound, (hBottom hFound).unique hj]

/-- A step from an index leads to the nearest significant token on its side, or nowhere if there is
none. A bisection of the list leads to the same, and the border it finds is within the list. -/
structure Steps (u : SourceUnit) (i : Nat) : Prop where
  prev_some : ∀ j, u.prevSignificant i = some j ↔ IsGreatest (u.codeIndices ∩ Set.Iio i) j
  prev_none : u.prevSignificant i = none ↔ u.codeIndices ∩ Set.Iio i = ∅
  next_some : ∀ j, u.nextSignificant i = some j ↔ IsLeast (u.codeIndices ∩ Set.Ioi i) j
  next_none : u.nextSignificant i = none ↔ u.codeIndices ∩ Set.Ioi i = ∅
  prev_bisected : u.prevSignificant i = u.prevByBisection i
  next_bisected : u.nextSignificant i = u.nextByBisection i
  border_le : bisect (fun k => k < i) u.significant ≤ u.significant.length

theorem steps (u : SourceUnit) (i : Nat) : u.Steps i where
  prev_some _ := prevSignificant_eq_some_iff
  prev_none := prevSignificant_eq_none_iff
  next_some _ := nextSignificant_eq_some_iff
  next_none := nextSignificant_eq_none_iff
  prev_bisected := Option.ext fun _ =>
    prevSignificant_eq_some_iff.trans prevByBisection_eq_some_iff.symm
  next_bisected := Option.ext fun _ =>
    nextSignificant_eq_some_iff.trans nextByBisection_eq_some_iff.symm
  border_le := (u.isBorder_lt i).le_length

/-! ## There and back -/

theorem prev_of_next (h : u.nextSignificant i = some j) :
    u.prevSignificant j = some i ↔ i ∈ u.codeIndices := by
  obtain ⟨⟨-, hij⟩, hLeast⟩ := nextSignificant_eq_some_iff.mp h
  rw [prevSignificant_eq_some_iff]
  refine ⟨fun hi => hi.1.1, fun hi => ⟨⟨hi, hij⟩, ?_⟩⟩
  rintro k ⟨hk, hkj⟩
  by_contra hNot
  exact absurd (hLeast ⟨hk, Nat.not_le.mp hNot⟩) (Nat.not_le.mpr hkj)

theorem next_of_prev (h : u.prevSignificant i = some j) :
    u.nextSignificant j = some i ↔ i ∈ u.codeIndices := by
  obtain ⟨⟨-, hji⟩, hGreatest⟩ := prevSignificant_eq_some_iff.mp h
  rw [nextSignificant_eq_some_iff]
  refine ⟨fun hi => hi.1.1, fun hi => ⟨⟨hi, hji⟩, ?_⟩⟩
  rintro k ⟨hk, hjk⟩
  by_contra hNot
  exact absurd (hGreatest ⟨hk, Nat.not_le.mp hNot⟩) (Nat.not_le.mpr hjk)

/-! ## Walks -/

/-- Where `n` steps forward lead. -/
def walk (u : SourceUnit) (start : Option Nat) : Nat → Option Nat
  | 0 => start
  | n + 1 => (u.walk start n).bind u.nextSignificant

theorem next_place (h : u.significant[m]? = some k) :
    u.nextSignificant k = u.significant[m + 1]? := by
  obtain ⟨hLength, hBorder⟩ := u.isBorder_le k
  simp only [decide_eq_true_eq] at hBorder
  rw [(u.steps k).next_bisected, nextByBisection]
  generalize bisect (fun x => x ≤ k) u.significant = border at hLength hBorder ⊢
  have hBefore : m < border := (hBorder m k h).mp (Nat.le_refl k)
  have hNot : ¬m + 1 < border := by
    intro hLt
    have hy : u.significant[m + 1]? = some u.significant[m + 1] :=
      List.getElem?_eq_getElem (Nat.lt_of_lt_of_le hLt hLength)
    have hLe := (place_le_iff hy h).mp ((hBorder _ _ hy).mpr hLt)
    omega
  rw [Nat.le_antisymm (Nat.not_lt.mp hNot) hBefore]

theorem next_places (u : SourceUnit) (m : Nat) :
    u.significant[m]?.bind u.nextSignificant = u.significant[m + 1]? := by
  cases h : u.significant[m]? with
  | some k => exact next_place h
  | none =>
    have hLe := List.getElem?_eq_none_iff.mp h
    exact (List.getElem?_eq_none (Nat.le_succ_of_le hLe)).symm

theorem walk_places (u : SourceUnit) (m n : Nat) :
    u.walk u.significant[m]? n = u.significant[m + n]? := by
  induction n with
  | zero => rfl
  | succ n ih => rw [walk, ih, next_places, Nat.add_assoc]

/-- The list has the significant tokens in order. A walk from one of them goes along the list, so a
walk from the first one comes by each once, by nothing else, and ends. -/
structure Walks (u : SourceUnit) : Prop where
  sorted : u.significant.SortedLT
  mem_iff : ∀ k, k ∈ u.significant ↔ k ∈ u.codeIndices
  onward : ∀ m n, u.walk u.significant[m]? n = u.significant[m + n]?
  once : ∀ k ∈ u.codeIndices, ∃! n, u.walk u.significant.head? n = some k
  only : ∀ n k, u.walk u.significant.head? n = some k → k ∈ u.codeIndices
  ends : ∀ n, u.walk u.significant.head? n = none ↔ u.significant.length ≤ n

theorem walks (u : SourceUnit) : u.Walks := by
  have hFirst (n : Nat) : u.walk u.significant.head? n = u.significant[n]? := by
    rw [List.head?_eq_getElem?, walk_places, Nat.zero_add]
  constructor
  case sorted => exact u.sorted_significant
  case mem_iff => exact fun k => mem_significant_iff
  case onward => exact u.walk_places
  case once =>
    intro k hk
    obtain ⟨m, hm⟩ := exists_place hk
    refine ⟨m, (hFirst m).trans hm, fun n hWalk => ?_⟩
    have hn : u.significant[n]? = some k := (hFirst n).symm.trans hWalk
    apply Nat.le_antisymm
    · exact (place_le_iff hn hm).mp (Nat.le_refl k)
    · exact (place_le_iff hm hn).mp (Nat.le_refl k)
  case only =>
    intro n k hWalk
    exact mem_codeIndices ((hFirst n).symm.trans hWalk)
  case ends =>
    intro n
    rw [hFirst]
    exact List.getElem?_eq_none_iff

end SourceUnit

/-- Steps between significant tokens are exact, from significant tokens, from trivia and from beyond
the end. A step forward and a step back undo each other exactly where they start at a significant
token, and a walk from the first one visits all of them. -/
theorem navigation_exact (u : SourceUnit) :
    (∀ i, u.Steps i) ∧
    (∀ i j, u.nextSignificant i = some j → (u.prevSignificant j = some i ↔ i ∈ u.codeIndices)) ∧
    (∀ i j, u.prevSignificant i = some j → (u.nextSignificant j = some i ↔ i ∈ u.codeIndices)) ∧
    u.Walks :=
  ⟨u.steps, fun _ _ => SourceUnit.prev_of_next, fun _ _ => SourceUnit.next_of_prev, u.walks⟩

theorem navigation_exact_comment :
    ∃ u, SourceUnit.parse "a.js" "a  /* c */ = 1;" = .ok u ∧ u.significant = [0, 4, 6, 7] ∧
      u.nextSignificant 0 = some 4 ∧ u.prevSignificant 4 = some 0 ∧
      u.nextSignificant 2 = some 4 ∧ u.prevSignificant 4 ≠ some 2 ∧
      u.prevSignificant 9 = some 7 ∧ u.nextSignificant 7 ≠ some 9 ∧
      u.walk (some 0) 3 = some 7 ∧ u.walk (some 0) 4 = none := by
  obtain ⟨u, hu, hListed, hNext, hOver, hEnd⟩ : ∃ u,
      SourceUnit.parse "a.js" "a  /* c */ = 1;" = .ok u ∧ u.significant = [0, 4, 6, 7] ∧
      u.nextSignificant 0 = some 4 ∧ u.nextSignificant 2 = some 4 ∧
      u.prevSignificant 9 = some 7 := exists_ok (by decide +kernel)
  obtain ⟨-, hBack, hForth, hWalks⟩ := navigation_exact u
  have hMem (k : Nat) : k ∈ u.codeIndices ↔ k ∈ [0, 4, 6, 7] :=
    (hWalks.mem_iff k).symm.trans (by rw [hListed])
  have hWalk (n : Nat) : u.walk (some 0) n = [0, 4, 6, 7][n]? := by
    have hOnward := hWalks.onward 0 n
    rwa [hListed, Nat.zero_add] at hOnward
  refine ⟨u, hu, hListed, hNext, ?_, hOver, ?_, hEnd, ?_, hWalk 3, hWalk 4⟩
  · exact (hBack 0 4 hNext).mpr ((hMem 0).mpr (by decide))
  · intro hPrev
    exact absurd ((hMem 2).mp ((hBack 2 4 hOver).mp hPrev)) (by decide)
  · intro hNext
    exact absurd ((hMem 9).mp ((hForth 9 7 hEnd).mp hNext)) (by decide)

end RuleScout
