import RuleScout.Proofs.CodeView

/-!
# Brackets of code

In the code of a unit every bracket has its other side, pairs of brackets do not cross, and the
parent of a position is the innermost pair around it. A range of positions is whole when no pair
has one side in it and the other outside. What stands behind an opening bracket and a whole range
stands directly inside that bracket.
-/

set_option autoImplicit false

namespace RuleScout.Code

variable {c : Code} {i j k o p q d : Nat} {b : Bracket} {kind : TokenKind}
  {text other word : String} {words : List String}

/-! ## What a lexeme is -/

theorem isPunct_iff :
    c.isPunct p text = true ↔ ∃ l, c.at? p = some l ∧ l.isPunct text = true :=
  Option.any_eq_true _ _

theorem isKind_iff : c.isKind p kind = true ↔ ∃ l, c.at? p = some l ∧ l.kind = kind := by
  simp [isKind, Option.any_eq_true]

theorem isKeywordOf_iff : c.isKeywordOf p words = true ↔
    ∃ l, c.at? p = some l ∧ l.kind = .keyword ∧ l.text ∈ words := by
  simp [isKeywordOf, Option.any_eq_true]

theorem isKeyword_iff : c.isKeyword p word = true ↔
    ∃ l, c.at? p = some l ∧ l.kind = .keyword ∧ l.text = word := by
  simp [isKeyword, Lexeme.isKeyword, Option.any_eq_true]

theorem isPunct_of_isPunct (h : c.isPunct p text = true) (hOther : text ≠ other) :
    c.isPunct p other = false := by
  obtain ⟨l, hAt, hText⟩ := isPunct_iff.mp h
  rw [isPunct, hAt]
  exact Lexeme.isPunct_of_isPunct hText hOther

theorem isKind_of_isPunct (h : c.isPunct p text = true) (hKind : kind ≠ .punctuator) :
    c.isKind p kind = false := by
  obtain ⟨l, hAt, hText⟩ := isPunct_iff.mp h
  simp [isKind, hAt, (Lexeme.isPunct_iff.mp hText).1, Ne.symm hKind]

theorem isPunct_of_isKind (h : c.isKind p kind = true) (hKind : kind ≠ .punctuator) :
    c.isPunct p text = false := by
  refine Bool.eq_false_iff.mpr fun hPunct => ?_
  rw [isKind_of_isPunct hPunct hKind] at h
  cases h

theorem isKind_of_isKeywordOf (h : c.isKeywordOf p words = true) :
    c.isKind p .keyword = true := by
  obtain ⟨l, hAt, hKind, -⟩ := isKeywordOf_iff.mp h
  exact isKind_iff.mpr ⟨l, hAt, hKind⟩

theorem isKind_of_isKeyword (h : c.isKeyword p word = true) : c.isKind p .keyword = true := by
  obtain ⟨l, hAt, hKind, -⟩ := isKeyword_iff.mp h
  exact isKind_iff.mpr ⟨l, hAt, hKind⟩

theorem isKeyword_of_isKind (h : c.isKind p kind = true) (hKind : kind ≠ .keyword) :
    c.isKeyword p word = false := by
  obtain ⟨l, hAt, hOwn⟩ := isKind_iff.mp h
  simp [isKeyword, hAt, Lexeme.isKeyword, hOwn, hKind]

theorem isKeyword_of_isPunct (h : c.isPunct p text = true) : c.isKeyword p word = false := by
  obtain ⟨l, hAt, hText⟩ := isPunct_iff.mp h
  simp [isKeyword, hAt, Lexeme.isKeyword, (Lexeme.isPunct_iff.mp hText).1]

theorem lt_size_of_isKind (h : c.isKind p kind = true) : p < c.size := by
  obtain ⟨l, hAt, -⟩ := isKind_iff.mp h
  exact (Array.getElem?_eq_some_iff.mp hAt).1

theorem lt_size_of_isPunct (h : c.isPunct p text = true) : p < c.size := by
  obtain ⟨l, hAt, -⟩ := isPunct_iff.mp h
  exact (Array.getElem?_eq_some_iff.mp hAt).1

/-! ## Pairs of brackets -/

/-- The brackets of the code are those of its lexemes, all of them in pairs. -/
def Fits (c : Code) : Prop :=
  ∃ n, c.brackets = .ofNesting n ∧ Recorded c.lexemes.toList n

structure Pair (c : Code) (o k : Nat) : Prop where
  matching : c.matching o = some k
  lt : o < k

theorem Pair.closer_unique (h : c.Pair o k) (h' : c.Pair o d) : k = d :=
  Option.some.inj (h.matching.symm.trans h'.matching)

theorem markAt_eq_opening_iff :
    markAt c.lexemes.toList p = some (.opening b) ↔ c.isPunct p b.opening = true := by
  rw [markAt, Array.getElem?_toList, Option.bind_eq_some_iff, isPunct_iff]
  simp only [Lexeme.mark?_eq_some_iff, Lexeme.isPunct_iff]
  rfl

theorem markAt_eq_closing_iff :
    markAt c.lexemes.toList p = some (.closing b) ↔ c.isPunct p b.closing = true := by
  rw [markAt, Array.getElem?_toList, Option.bind_eq_some_iff, isPunct_iff]
  simp only [Lexeme.mark?_eq_some_iff, Lexeme.isPunct_iff]
  rfl

namespace Fits

variable (h : c.Fits)
include h

theorem matching_iff :
    c.matching i = some j ↔ Closes c.lexemes.toList i j ∨ Closes c.lexemes.toList j i := by
  obtain ⟨n, hBrackets, hRecorded⟩ := h
  rw [matching, hBrackets]
  exact RuleScout.matching_iff hRecorded.settled

theorem pair_iff : c.Pair o k ↔ Closes c.lexemes.toList o k := by
  constructor
  · rintro ⟨hMatching, hLt⟩
    exact (h.matching_iff.mp hMatching).resolve_right fun hCloses => by
      have hGt := hCloses.lt
      omega
  · intro hCloses
    exact ⟨h.matching_iff.mpr (.inl hCloses), hCloses.lt⟩

theorem matching_iff_pair : c.matching i = some j ↔ c.Pair i j ∨ c.Pair j i := by
  rw [h.matching_iff, h.pair_iff, h.pair_iff]

theorem matching_closer (hPair : c.Pair o k) : c.matching k = some o :=
  h.matching_iff_pair.mpr (.inr hPair)

theorem opener_unique (ho : c.Pair o k) (hq : c.Pair q k) : o = q :=
  (h.pair_iff.mp ho).opener_unique (h.pair_iff.mp hq)

theorem not_cross (ho : c.Pair o k) (hq : c.Pair q d) (hoq : o < q) (hqk : q < k) : d < k :=
  (h.pair_iff.mp ho).not_cross (h.pair_iff.mp hq) hoq hqk

theorem opener_ne_closer (ho : c.Pair o k) (hq : c.Pair q d) : o ≠ d :=
  (h.pair_iff.mp ho).ne_closer (h.pair_iff.mp hq)

/-- What is in no pair is neither side of one. -/
theorem ne_of_matching_eq_none (hPair : c.Pair o k) (hNone : c.matching p = none) :
    p ≠ o ∧ p ≠ k := by
  constructor
  · rintro rfl
    rw [hPair.matching] at hNone
    cases hNone
  · rintro rfl
    rw [h.matching_closer hPair] at hNone
    cases hNone

theorem sort (hPair : c.Pair o k) :
    ∃ b : Bracket, c.isPunct o b.opening = true ∧ c.isPunct k b.closing = true := by
  obtain ⟨b, hOpening, hClosing⟩ := (h.pair_iff.mp hPair).sort
  exact ⟨b, markAt_eq_opening_iff.mp hOpening, markAt_eq_closing_iff.mp hClosing⟩

theorem exists_closer (hOpening : c.isPunct o b.opening = true) : ∃ k, c.Pair o k := by
  obtain ⟨n, -, hRecorded⟩ := id h
  obtain ⟨k, hCloses⟩ := hRecorded.settled.openers o b (markAt_eq_opening_iff.mpr hOpening)
  exact ⟨k, h.pair_iff.mpr hCloses⟩

theorem exists_opener (hClosing : c.isPunct k b.closing = true) : ∃ o, c.Pair o k := by
  obtain ⟨n, -, hRecorded⟩ := id h
  obtain ⟨q, hq, hCloser⟩ :=
    hRecorded.settled.closers k (Nat.zero_le k) b (markAt_eq_closing_iff.mpr hClosing)
  exact ⟨q.opener, h.pair_iff.mpr (hCloser ▸ hRecorded.settled.closes q hq)⟩

/-- A lexeme that is not a bracket is in no pair. -/
theorem matching_eq_none (hOpening : ∀ b : Bracket, c.isPunct p b.opening = false)
    (hClosing : ∀ b : Bracket, c.isPunct p b.closing = false) : c.matching p = none := by
  refine Option.eq_none_iff_forall_ne_some.mpr fun q hMatching => ?_
  rcases h.matching_iff_pair.mp hMatching with hPair | hPair
  · obtain ⟨b, hOpens, -⟩ := h.sort hPair
    rw [hOpening b] at hOpens
    cases hOpens
  · obtain ⟨b, -, hCloses⟩ := h.sort hPair
    rw [hClosing b] at hCloses
    cases hCloses

theorem matching_of_isKind (hKind : c.isKind p kind = true) (hNot : kind ≠ .punctuator) :
    c.matching p = none :=
  h.matching_eq_none (fun _ => isPunct_of_isKind hKind hNot) fun _ => isPunct_of_isKind hKind hNot

theorem matching_of_isPunct (hPunct : c.isPunct p text = true)
    (hNot : text ∉ ["(", ")", "[", "]", "\x7b", "\x7d"]) : c.matching p = none := by
  simp only [List.mem_cons, List.not_mem_nil, or_false, not_or] at hNot
  refine h.matching_eq_none (fun b => isPunct_of_isPunct hPunct ?_) fun b =>
    isPunct_of_isPunct hPunct ?_
  · cases b <;> simp [Bracket.opening, hNot]
  · cases b <;> simp [Bracket.closing, hNot]

/-! ## The innermost bracket -/

theorem mem_ancestors_iff :
    o ∈ c.brackets.ancestors p ↔ ∃ k, c.Pair o k ∧ o < p ∧ p < k := by
  simp only [h.pair_iff]
  obtain ⟨n, hBrackets, hRecorded⟩ := h
  rw [hBrackets]
  exact hRecorded.mem_ancestors_iff

theorem parent_eq_some_iff :
    c.parent p = some o ↔ (∃ k, c.Pair o k ∧ o < p ∧ p < k) ∧
      ∀ q d, c.Pair q d → q < p → p < d → q ≤ o := by
  have hDecreasing : (c.brackets.ancestors p).Pairwise (· > ·) := by
    obtain ⟨n, hBrackets, hRecorded⟩ := id h
    rw [hBrackets]
    exact hRecorded.ancestors_decreasing p
  have hMem (q : Nat) := h.mem_ancestors_iff (p := p) (o := q)
  rw [parent, Structure.parent]
  cases hAround : c.brackets.ancestors p with
  | nil =>
    rw [List.head?_nil, ← hMem, hAround]
    simp
  | cons top rest =>
    rw [hAround, List.pairwise_cons] at hDecreasing
    rw [List.head?_cons, Option.some_inj, ← hMem, hAround]
    constructor
    · rintro rfl
      refine ⟨List.mem_cons_self, fun q d hPair hqp hpd => ?_⟩
      rcases List.mem_cons.mp (hAround ▸ (hMem q).mpr ⟨d, hPair, hqp, hpd⟩) with rfl | hq
      · exact Nat.le_refl _
      · exact (hDecreasing.1 q hq).le
    · rintro ⟨ho, hLast⟩
      obtain ⟨d, hPair, hqp, hpd⟩ := (hMem top).mp (hAround ▸ List.mem_cons_self)
      rcases List.mem_cons.mp ho with rfl | ho
      · rfl
      · exact absurd (hLast top d hPair hqp hpd) (Nat.not_le.mpr (hDecreasing.1 o ho))

theorem parent_eq_none_iff : c.parent p = none ↔ ∀ q d, c.Pair q d → q < p → d ≤ p := by
  rw [parent, Structure.parent, List.head?_eq_none_iff, List.eq_nil_iff_forall_not_mem]
  simp only [h.mem_ancestors_iff, not_exists, not_and, Nat.not_lt]

/-- Positions inside the same pairs have the same parent. -/
theorem parent_congr (hSame : ∀ o k, c.Pair o k → (o < i ∧ i < k ↔ o < j ∧ j < k)) :
    c.parent i = c.parent j := by
  ext o
  rw [h.parent_eq_some_iff, h.parent_eq_some_iff]
  constructor
  · rintro ⟨⟨k, hPair, hAround⟩, hLast⟩
    refine ⟨⟨k, hPair, (hSame o k hPair).mp hAround⟩, fun q d hOther hqj hjd => ?_⟩
    obtain ⟨hqi, hid⟩ := (hSame q d hOther).mpr ⟨hqj, hjd⟩
    exact hLast q d hOther hqi hid
  · rintro ⟨⟨k, hPair, hAround⟩, hLast⟩
    refine ⟨⟨k, hPair, (hSame o k hPair).mpr hAround⟩, fun q d hOther hqi hid => ?_⟩
    obtain ⟨hqj, hjd⟩ := (hSame q d hOther).mp ⟨hqi, hid⟩
    exact hLast q d hOther hqj hjd

/-- Positions with the same parent are inside the same pairs. -/
theorem inside_of_parent_eq (hSame : c.parent i = c.parent j) (hPair : c.Pair o k) (hoj : o < j)
    (hjk : j < k) : o < i ∧ i < k := by
  cases hParent : c.parent j with
  | none => exact absurd (h.parent_eq_none_iff.mp hParent o k hPair hoj) (Nat.not_le.mpr hjk)
  | some q =>
    obtain ⟨⟨d, hInner, hqj, hjd⟩, hLast⟩ := h.parent_eq_some_iff.mp hParent
    obtain ⟨⟨e, hSide, hqi, hid⟩, -⟩ := h.parent_eq_some_iff.mp (hSame.trans hParent)
    obtain rfl := hInner.closer_unique hSide
    have hoq := hLast o k hPair hoj hjk
    rcases Nat.eq_or_lt_of_le hoq with rfl | hoq
    · exact ⟨hqi, hPair.closer_unique hInner ▸ hid⟩
    · have hdk := h.not_cross hPair hInner hoq (by omega)
      omega

/-- A position between two with the same parent has that parent, or it is inside a pair that is
closed before the second of them. -/
theorem parent_eq_or_exists_pair (hSame : c.parent i = c.parent j) (hip : i < p) (hpj : p < j)
    (hOpen : ∀ o, ¬c.Pair o j) :
    c.parent p = c.parent i ∨ ∃ o k, c.Pair o k ∧ o < p ∧ p < k ∧ k < j := by
  by_contra hNeither
  rw [not_or] at hNeither
  obtain ⟨hParent, hNone⟩ := hNeither
  refine hParent (h.parent_congr fun o k hPair => ⟨fun hAround => ?_, fun hAround => ?_⟩)
  · -- the pair is not closed before `j`, so `j` is inside it
    have hkj : ¬k < j := fun hkj => hNone ⟨o, k, hPair, hAround.1, hAround.2, hkj⟩
    have hNe : k ≠ j := fun hEq => hOpen o (hEq ▸ hPair)
    exact h.inside_of_parent_eq hSame hPair (by omega) (by omega)
  · have hBehind := h.inside_of_parent_eq hSame.symm hPair hAround.1 hAround.2
    omega

end Fits

/-! ## Whole ranges -/

/-- No pair has one side from `i` up to `j` and the other outside. -/
def Whole (c : Code) (i j : Nat) : Prop :=
  ∀ q d, c.Pair q d → (i ≤ q ∧ q < j ↔ i ≤ d ∧ d < j)

theorem Whole.append (hFront : c.Whole i k) (hBehind : c.Whole k j) (hik : i ≤ k) (hkj : k ≤ j) :
    c.Whole i j := by
  intro q d hPair
  have hFront := hFront q d hPair
  have hBehind := hBehind q d hPair
  omega

theorem whole_self (c : Code) (i : Nat) : c.Whole i i := by
  intro q d _
  omega

/-- Directly inside the pair of brackets, up to its closing side. -/
structure Inside (c : Code) (o k p : Nat) : Prop where
  pair : c.Pair o k
  lt : o < p
  le : p ≤ k
  whole : c.Whole (o + 1) p

theorem Pair.inside (h : c.Pair o k) : c.Inside o k (o + 1) :=
  ⟨h, Nat.lt_succ_self o, h.lt, whole_self c _⟩

theorem Inside.append (h : c.Inside o k p) (hWhole : c.Whole p j) (hpj : p ≤ j) (hjk : j ≤ k) :
    c.Inside o k j :=
  ⟨h.pair, Nat.lt_of_lt_of_le h.lt hpj, hjk, h.whole.append hWhole h.lt hpj⟩

namespace Fits

variable (h : c.Fits)
include h

theorem whole_single (hNone : c.matching p = none) : c.Whole p (p + 1) := by
  intro q d hPair
  have hSides := h.ne_of_matching_eq_none hPair hNone
  omega

theorem whole_pair (hPair : c.Pair o k) : c.Whole o (k + 1) := by
  intro q d hOther
  have hOwn := hPair.lt
  have hLt := hOther.lt
  constructor
  · rintro ⟨hoq, hqk⟩
    rcases Nat.eq_or_lt_of_le hoq with rfl | hoq
    · have hSame := hPair.closer_unique hOther
      omega
    · have hNe := h.opener_ne_closer hOther hPair
      have hInner := h.not_cross hPair hOther hoq (by omega)
      omega
  · rintro ⟨hod, hdk⟩
    have hNe := h.opener_ne_closer hPair hOther
    rcases Nat.lt_or_ge q o with hqo | hoq
    · have hInner := h.not_cross hOther hPair hqo (by omega)
      have hSame : d ≤ k := by omega
      omega
    · omega

theorem whole_of_isPunct (hPunct : c.isPunct p text = true)
    (hNot : text ∉ ["(", ")", "[", "]", "\x7b", "\x7d"]) : c.Whole p (p + 1) :=
  h.whole_single (h.matching_of_isPunct hPunct hNot)

/-- Brackets of one sort around a whole range are a pair. -/
theorem pair_around (hOpening : c.isPunct o b.opening = true)
    (hClosing : c.isPunct k b.closing = true) (hLt : o < k) (hWhole : c.Whole (o + 1) k) :
    c.Pair o k := by
  obtain ⟨d, hOpens⟩ := h.exists_closer hOpening
  obtain ⟨q, hCloses⟩ := h.exists_opener hClosing
  have hLtOpens := hOpens.lt
  have hLtCloses := hCloses.lt
  have hOpens' := hWhole o d hOpens
  have hCloses' := hWhole q k hCloses
  rcases Nat.lt_or_ge q o with hqo | hoq
  · have hInner := h.not_cross hCloses hOpens hqo hLt
    omega
  · have hSame : q = o := by omega
    exact hSame ▸ hCloses

theorem parent_inside (hInside : c.Inside o k p) (hp : p < k) : c.parent p = some o := by
  refine h.parent_eq_some_iff.mpr ⟨⟨k, hInside.pair, hInside.lt, hp⟩, fun q d hPair hqp hpd => ?_⟩
  have hBoth := hInside.whole q d hPair
  omega

end Fits

/-- The innermost pair around a position inside a pair is that pair or one inside it. -/
theorem Fits.exists_parent (h : c.Fits) (hPair : c.Pair o k) (hop : o < p) (hpk : p < k) :
    ∃ q d, c.parent p = some q ∧ c.Pair q d ∧ o ≤ q ∧ q < p ∧ p < d ∧ d ≤ k := by
  cases hParent : c.parent p with
  | none => exact absurd (h.parent_eq_none_iff.mp hParent o k hPair hop) (Nat.not_le.mpr hpk)
  | some q =>
    obtain ⟨⟨d, hInner, hqp, hpd⟩, hLast⟩ := h.parent_eq_some_iff.mp hParent
    have hoq := hLast o k hPair hop hpk
    refine ⟨q, d, rfl, hInner, hoq, hqp, hpd, ?_⟩
    rcases Nat.eq_or_lt_of_le hoq with rfl | hoq
    · exact (hPair.closer_unique hInner).ge
    · exact (h.not_cross hPair hInner hoq (by omega)).le

end Code

theorem SourceUnit.code_fits {u : SourceUnit} {path text : String}
    (h : SourceUnit.parse path text = .ok u) : u.code.Fits := by
  obtain ⟨-, m, -, hBrackets, -, hRecorded⟩ := exists_structures h
  refine ⟨m, hBrackets, ?_⟩
  rw [code, map_toLexeme_significantTokens]
  exact hRecorded

end RuleScout
