import RuleScout.Proofs.Nested

/-!
# Which bracket closes which

A closing bracket closes an opening one of its own sort when the brackets between the two are
well nested. While brackets are read, the stack holds those that nothing has closed yet: this is
the invariant `Open`. Both outcomes of reading are described by it, the pairs that are found and
the place where a text is refused.
-/

set_option autoImplicit false

namespace RuleScout

def markAt (ls : List Lexeme) (i : Nat) : Option Mark := ls[i]?.bind Lexeme.mark?

/-- The brackets strictly between two indices. -/
def between (ls : List Lexeme) (o c : Nat) : List Mark := marks ((ls.take c).drop (o + 1))

structure Closes (ls : List Lexeme) (o c : Nat) : Prop where
  lt : o < c
  sort : ∃ b, markAt ls o = some (.opening b) ∧ markAt ls c = some (.closing b)
  inner : Nested (between ls o c)

/-- The bracket at `o` is open in front of index `i`. -/
structure OpenAt (ls : List Lexeme) (i o : Nat) : Prop where
  lt : o < i
  opener : ∃ b, markAt ls o = some (.opening b)
  unclosed : ∀ c < i, ¬Closes ls o c

structure Innermost (ls : List Lexeme) (i o : Nat) : Prop where
  isOpen : OpenAt ls i o
  last : ∀ q, OpenAt ls i q → q ≤ o

/-- The closing bracket at `c` does not close the innermost open bracket. -/
structure Misfit (ls : List Lexeme) (c : Nat) : Prop where
  closer : ∃ b, markAt ls c = some (.closing b)
  misses : ∀ o, Innermost ls c o →
    ¬∃ b, markAt ls o = some (.opening b) ∧ markAt ls c = some (.closing b)

/-- Where lexemes whose brackets are not well nested are refused. -/
inductive Culprit (ls : List Lexeme) : Nat → Prop where
  | misfit {c : Nat} (hMisfit : Misfit ls c) (hFirst : ∀ d < c, ¬Misfit ls d) : Culprit ls c
  | unclosed {o : Nat} (hOpen : Innermost ls ls.length o) (hFit : ∀ d, ¬Misfit ls d) : Culprit ls o

/-- The last significant lexeme in front of an index. -/
def significantBefore (ls : List Lexeme) (i : Nat) : Option Lexeme :=
  ((ls.take i).filter (·.isSignificant)).getLast?

/-- The kind of a brace at an index; other brackets have none. -/
def braceOf (ls : List Lexeme) (i : Nat) (b : Bracket) : Option BraceKind :=
  if b = .curly then some (.after (significantBefore ls i)) else none

variable {ls : List Lexeme} {i o c q d : Nat} {b : Bracket} {t : Lexeme} {ts : List Lexeme}

/-! ## Walking along the lexemes -/

theorem at_of_drop (h : ls.drop i = t :: ts) : ls[i]? = some t ∧ ls.drop (i + 1) = ts := by
  constructor
  · rw [← List.head?_drop, h]
    rfl
  · rw [← List.tail_drop, h]
    rfl

theorem lt_length_of_markAt {m : Mark} (h : markAt ls i = some m) : i < ls.length := by
  obtain ⟨t, hAt, -⟩ := Option.bind_eq_some_iff.mp h
  exact (List.getElem?_eq_some_iff.mp hAt).1

theorem Culprit.lt_length (h : Culprit ls i) : i < ls.length := by
  cases h with
  | misfit hMisfit _ =>
    obtain ⟨b, hMark⟩ := hMisfit.closer
    exact lt_length_of_markAt hMark
  | unclosed hOpen _ => exact hOpen.isOpen.lt

theorem markAt_isSome_iff :
    (markAt ls i).isSome = true ↔ ∃ t, ls[i]? = some t ∧ t.kind = .punctuator ∧
      t.text ∈ ["(", ")", "[", "]", "\x7b", "\x7d"] := by
  rw [markAt]
  cases ls[i]? with
  | none => simp
  | some t => simp [Lexeme.mark?_isSome_iff]

theorem significantBefore_succ (h : ls[i]? = some t) :
    significantBefore ls (i + 1) = if t.isSignificant then some t else significantBefore ls i := by
  rw [significantBefore, List.take_add_one, h, List.filter_append]
  cases hSignificant : t.isSignificant with
  | true => simp [hSignificant]
  | false => simp [hSignificant, significantBefore]

theorem marks_getElem? (ls : List Lexeme) (i : Nat) :
    marks ls[i]?.toList = (markAt ls i).toList := by
  rw [markAt]
  cases ls[i]? with
  | none => rfl
  | some t => cases hMark : t.mark? <;> simp [marks, hMark]

theorem marks_take_succ (ls : List Lexeme) (i : Nat) :
    marks (ls.take (i + 1)) = marks (ls.take i) ++ (markAt ls i).toList := by
  rw [← marks_getElem?, List.take_add_one, marks, marks, marks, List.filterMap_append]

theorem between_succ (ho : o < i) :
    between ls o (i + 1) = between ls o i ++ (markAt ls i).toList := by
  rw [← marks_getElem?, between, between, List.take_add_one, List.drop_append, marks, marks, marks,
    List.filterMap_append]
  congr 1
  cases hAt : ls[i]? with
  | none => simp
  | some t =>
    obtain ⟨hi, -⟩ := List.getElem?_eq_some_iff.mp hAt
    rw [List.length_take_of_le (Nat.le_of_lt hi), Nat.sub_eq_zero_of_le ho, List.drop_zero]

theorem between_next (i : Nat) : between ls i (i + 1) = [] := by
  rw [between, List.drop_of_length_le (List.length_take_le _ _)]
  rfl

theorem between_split {m : Mark} (ho : o < q) (hq : q < c) (hMark : markAt ls q = some m) :
    between ls o c = between ls o q ++ m :: between ls q c := by
  induction c with
  | zero => cases hq
  | succ c ih =>
    rw [between_succ (by omega)]
    rcases Nat.lt_succ_iff_lt_or_eq.mp hq with hLt | rfl
    · rw [ih hLt, between_succ hLt]
      simp
    · rw [between_next, hMark]
      rfl

/-! ## Pairs of brackets -/

/-- Behind its closing bracket an opening one has nothing left to consume with. -/
theorem Closes.consume_beyond (h : Closes ls o c) (hc : c < i) :
    consume [] (between ls o i) = none := by
  obtain ⟨b, -, hMark⟩ := h.sort
  rw [between_split h.lt hc hMark, consume_of_nested h.inner]
  rfl

theorem Closes.closer_unique (hc : Closes ls o c) (hd : Closes ls o d) : c = d := by
  have hOrder {x y : Nat} (hx : Closes ls o x) (hy : Closes ls o y) : ¬x < y := by
    intro hLt
    have hNone := hx.consume_beyond hLt
    rw [nested_iff_consume.mp hy.inner] at hNone
    cases hNone
  have hcd := hOrder hc hd
  have hdc := hOrder hd hc
  omega

/-- A bracket that is opened in between, and not closed there, is left open. -/
theorem not_nested_between {rest : List Bracket} (ho : o < q) (hq : q < c)
    (hMark : markAt ls q = some (.opening b)) (hRest : consume [] (between ls q c) = some rest) :
    ¬Nested (between ls o c) := by
  rw [nested_iff_consume, between_split ho hq hMark, consume_append]
  cases hBefore : consume [] (between ls o q) with
  | none =>
    intro h
    cases h
  | some stack =>
    rw [Option.bind_some, consume_opening]
    have hBelow := consume_below hRest (b :: stack)
    rw [List.nil_append] at hBelow
    rw [hBelow]
    simp

theorem Closes.not_cross (ho : Closes ls o c) (hq : Closes ls q d) (hoq : o < q) (hqc : q < c) :
    d < c := by
  obtain ⟨b, hMark, hClose⟩ := hq.sort
  rcases Nat.lt_trichotomy d c with hLt | rfl | hGt
  · exact hLt
  · exact absurd ho.inner (not_nested_between hoq hqc hMark (nested_iff_consume.mp hq.inner))
  · -- the inner pair reaches beyond `c`, so what lies between `q` and `c` can at least be consumed
    obtain ⟨a, -, hOwn⟩ := ho.sort
    have hAll := nested_iff_consume.mp hq.inner
    rw [between_split hqc hGt hOwn, consume_append, Option.bind_eq_some_iff] at hAll
    obtain ⟨rest, hRest, -⟩ := hAll
    exact absurd ho.inner (not_nested_between hoq hqc hMark hRest)

theorem Closes.opener_unique (ho : Closes ls o c) (hq : Closes ls q c) : o = q := by
  rcases Nat.lt_trichotomy o q with hLt | rfl | hGt
  · exact absurd (ho.not_cross hq hLt hq.lt) (Nat.lt_irrefl c)
  · rfl
  · exact absurd (hq.not_cross ho hGt ho.lt) (Nat.lt_irrefl c)

/-- What has one side between two brackets of a pair has both sides there. -/
theorem Closes.encloses (h : Closes ls o c) (hPair : Closes ls q d ∨ Closes ls d q) (hoq : o < q)
    (hqc : q < c) : o < d ∧ d < c := by
  rcases hPair with hInner | hInner
  · exact ⟨Nat.lt_trans hoq hInner.lt, h.not_cross hInner hoq hqc⟩
  · refine ⟨?_, Nat.lt_trans hInner.lt hqc⟩
    rcases Nat.lt_trichotomy d o with hLt | rfl | hGt
    · exact absurd (hInner.not_cross h hLt hoq) (by omega)
    · exact absurd (hInner.closer_unique h) (by omega)
    · exact hGt

theorem Closes.ne_closer (ho : Closes ls o c) (hq : Closes ls q d) : o ≠ d := by
  rintro rfl
  obtain ⟨a, hOpening, -⟩ := ho.sort
  obtain ⟨b, -, hClosing⟩ := hq.sort
  rw [hOpening] at hClosing
  cases hClosing

/-! ## The stack of open brackets -/

/-- The stack holds the brackets that are open in front of an index, the innermost first. -/
structure Open (ls : List Lexeme) (i : Nat) (stack : List OpenBracket) : Prop where
  before : ∀ p ∈ stack, p.index < i
  sorted : stack.Pairwise fun inner outer => outer.index < inner.index
  opener : ∀ p ∈ stack, markAt ls p.index = some (.opening p.bracket)
  brace : ∀ p ∈ stack, p.brace = braceOf ls p.index p.bracket
  read : consume [] (marks (ls.take i)) = some (stack.map (·.bracket))
  above : ∀ inner p outer, stack = inner ++ p :: outer →
    consume [] (between ls p.index i) = some (inner.map (·.bracket))
  complete : ∀ o < i, ∀ b, markAt ls o = some (.opening b) →
    (∃ p ∈ stack, p.index = o) ∨ ∃ c < i, Closes ls o c

namespace Open

variable {stack below : List OpenBracket} {p : OpenBracket}

theorem start (ls : List Lexeme) : Open ls 0 [] where
  before p hp := by cases hp
  sorted := .nil
  opener p hp := by cases hp
  brace p hp := by cases hp
  read := rfl
  above inner p outer hSplit := by cases inner <;> cases hSplit
  complete o ho := by cases ho

theorem complete_succ (h : Open ls i stack) (hMark : ∀ b, markAt ls i ≠ some (.opening b)) :
    ∀ o < i + 1, ∀ b, markAt ls o = some (.opening b) →
      (∃ p ∈ stack, p.index = o) ∨ ∃ c < i + 1, Closes ls o c := by
  intro o ho b hOpening
  have hNe : o ≠ i := by
    rintro rfl
    exact hMark b hOpening
  rcases h.complete o (by omega) b hOpening with hStack | ⟨c, hc, hCloses⟩
  · exact .inl hStack
  · exact .inr ⟨c, Nat.lt_succ_of_lt hc, hCloses⟩

theorem plain (h : Open ls i stack) (hMark : markAt ls i = none) : Open ls (i + 1) stack where
  before p hp := Nat.lt_succ_of_lt (h.before p hp)
  sorted := h.sorted
  opener := h.opener
  brace := h.brace
  read := by
    rw [marks_take_succ, hMark, Option.toList_none, List.append_nil]
    exact h.read
  above inner p outer hSplit := by
    have hBefore := h.before p (by simp [hSplit])
    rw [between_succ hBefore, hMark, Option.toList_none, List.append_nil]
    exact h.above inner p outer hSplit
  complete := h.complete_succ (by simp [hMark])

theorem push (h : Open ls i stack) (hMark : markAt ls i = some (.opening b)) :
    Open ls (i + 1) (⟨i, b, braceOf ls i b⟩ :: stack) where
  before p hp := by
    rcases List.mem_cons.mp hp with rfl | hp
    · exact Nat.lt_succ_self i
    · exact Nat.lt_succ_of_lt (h.before p hp)
  sorted := List.pairwise_cons.mpr ⟨h.before, h.sorted⟩
  opener p hp := by
    rcases List.mem_cons.mp hp with rfl | hp
    · exact hMark
    · exact h.opener p hp
  brace p hp := by
    rcases List.mem_cons.mp hp with rfl | hp
    · rfl
    · exact h.brace p hp
  read := by
    rw [marks_take_succ, hMark, consume_append, h.read]
    rfl
  above inner p outer hSplit := by
    cases inner with
    | nil =>
      cases hSplit
      rw [between_next]
      rfl
    | cons top inner =>
      cases hSplit
      have hBefore := h.before p (by simp)
      rw [between_succ hBefore, hMark, consume_append, h.above inner p outer rfl]
      rfl
  complete o ho a hOpening := by
    rcases Nat.lt_succ_iff_lt_or_eq.mp ho with hLt | rfl
    · rcases h.complete o hLt a hOpening with ⟨p, hp, hIndex⟩ | ⟨c, hc, hCloses⟩
      · exact .inl ⟨p, List.mem_cons_of_mem _ hp, hIndex⟩
      · exact .inr ⟨c, by omega, hCloses⟩
    · exact .inl ⟨_, List.mem_cons_self, rfl⟩

/-- What closes the top of the stack closes the bracket that it is. -/
theorem closes (h : Open ls i (p :: below)) (hMark : markAt ls i = some (.closing p.bracket)) :
    Closes ls p.index i where
  lt := h.before p List.mem_cons_self
  sort := ⟨p.bracket, h.opener p List.mem_cons_self, hMark⟩
  inner := nested_iff_consume.mpr (h.above [] p below rfl)

theorem pop (h : Open ls i (p :: below)) (hMark : markAt ls i = some (.closing p.bracket)) :
    Open ls (i + 1) below where
  before q hq := Nat.lt_succ_of_lt (h.before q (List.mem_cons_of_mem p hq))
  sorted := (List.pairwise_cons.mp h.sorted).2
  opener q hq := h.opener q (List.mem_cons_of_mem p hq)
  brace q hq := h.brace q (List.mem_cons_of_mem p hq)
  read := by
    rw [marks_take_succ, hMark, consume_append, h.read]
    exact consume_closing
  above inner q outer hSplit := by
    have hBefore := h.before q (by simp [hSplit])
    have hAbove := h.above (p :: inner) q outer (by rw [hSplit]; rfl)
    rw [between_succ hBefore, hMark, consume_append, hAbove]
    exact consume_closing
  complete o ho b hOpening := by
    rcases h.complete_succ (by simp [hMark]) o ho b hOpening with ⟨q, hq, hIndex⟩ | hClosed
    · rcases List.mem_cons.mp hq with rfl | hq
      · subst hIndex
        exact .inr ⟨i, Nat.lt_succ_self i, h.closes hMark⟩
      · exact .inl ⟨q, hq, hIndex⟩
    · exact .inr hClosed

theorem openAt_iff (h : Open ls i stack) : OpenAt ls i o ↔ ∃ p ∈ stack, p.index = o := by
  constructor
  · intro hOpen
    obtain ⟨b, hOpening⟩ := hOpen.opener
    rcases h.complete o hOpen.lt b hOpening with hStack | ⟨c, hc, hCloses⟩
    · exact hStack
    · exact absurd hCloses (hOpen.unclosed c hc)
  · rintro ⟨p, hp, rfl⟩
    refine ⟨h.before p hp, ⟨p.bracket, h.opener p hp⟩, fun c hc hCloses => ?_⟩
    obtain ⟨inner, outer, hSplit⟩ := List.append_of_mem hp
    have hNone := hCloses.consume_beyond hc
    rw [h.above inner p outer hSplit] at hNone
    cases hNone

theorem not_innermost (h : Open ls i []) : ¬Innermost ls i o := by
  intro hInner
  obtain ⟨p, hp, -⟩ := h.openAt_iff.mp hInner.isOpen
  cases hp

theorem innermost_iff (h : Open ls i (p :: below)) : Innermost ls i o ↔ o = p.index := by
  have hTop : OpenAt ls i p.index := h.openAt_iff.mpr ⟨p, List.mem_cons_self, rfl⟩
  have hLast : ∀ q, OpenAt ls i q → q ≤ p.index := by
    intro q hq
    obtain ⟨r, hr, rfl⟩ := h.openAt_iff.mp hq
    rcases List.mem_cons.mp hr with rfl | hr
    · exact Nat.le_refl _
    · exact Nat.le_of_lt ((List.pairwise_cons.mp h.sorted).1 r hr)
  constructor
  · intro hInner
    exact Nat.le_antisymm (hLast o hInner.isOpen) (hInner.last _ hTop)
  · rintro rfl
    exact ⟨hTop, hLast⟩

theorem misfit_iff (h : Open ls i stack) (hMark : markAt ls i = some (.closing b)) :
    Misfit ls i ↔ ∀ p ∈ stack.head?, p.bracket ≠ b := by
  cases stack with
  | nil =>
    constructor
    · intro _ p hp
      cases hp
    · intro _
      exact ⟨⟨b, hMark⟩, fun o hInner => absurd hInner h.not_innermost⟩
  | cons p below =>
    have hOwn := h.opener p List.mem_cons_self
    constructor
    · rintro hMisfit q hq rfl
      cases hq
      exact hMisfit.misses p.index (h.innermost_iff.mpr rfl) ⟨p.bracket, hOwn, hMark⟩
    · intro hTop
      refine ⟨⟨b, hMark⟩, fun o hInner => ?_⟩
      rintro ⟨a, hOpening, hClosing⟩
      rw [h.innermost_iff.mp hInner, hOwn] at hOpening
      rw [hMark] at hClosing
      cases hOpening
      cases hClosing
      exact hTop p rfl rfl

theorem not_nested_of_misfit (h : Open ls i stack) (hMark : markAt ls i = some (.closing b))
    (hTop : ∀ p ∈ stack.head?, p.bracket ≠ b) : ¬Nested (marks ls) := by
  intro hNested
  have hSplit : marks ls = marks (ls.take i) ++ .closing b :: marks (ls.drop (i + 1)) := by
    have hTake := marks_take_succ ls i
    rw [hMark] at hTake
    rw [← List.singleton_append, ← List.append_assoc, ← Option.toList_some, ← hTake, marks, marks,
      marks, ← List.filterMap_append, List.take_append_drop]
  rw [nested_iff_consume, hSplit, consume_append, h.read, Option.bind_some] at hNested
  obtain ⟨below, hStack⟩ := exists_below_of_consume hNested
  cases stack with
  | nil => cases hStack
  | cons p rest =>
    cases hStack
    exact hTop p rfl rfl

end Open

end RuleScout
