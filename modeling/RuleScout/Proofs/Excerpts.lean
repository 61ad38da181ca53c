import Mathlib.Data.Option.Basic
import RuleScout.Proofs.CodeBrackets
import RuleScout.Rule.Builtin

/-!
# Excerpts

Two codes may say the same from one pair of braces to the other although they stand at other
positions and in other codes. Brackets inside are paired alike there, and whatever is asked about a
position inside is answered alike, as no question asked by the rules leads out of the braces.
-/

set_option autoImplicit false

namespace RuleScout

/-- Two lexemes say the same, the first as far behind line `m` as the second behind line `m'`. -/
structure Lexeme.Shifted (m m' : Nat) (l l' : Lexeme) : Prop where
  kind : l.kind = l'.kind
  text : l.text = l'.text
  line : l.line + m' = l'.line + m

namespace Lexeme.Shifted

variable {m m' : Nat} {l l' k k' : Lexeme}

theorem symm (h : Shifted m m' l l') : Shifted m' m l' l := ⟨h.kind.symm, h.text.symm, h.line.symm⟩

theorem isPunct (h : Shifted m m' l l') (text : String) : l.isPunct text = l'.isPunct text := by
  rw [Lexeme.isPunct, Lexeme.isPunct, h.kind, h.text]

theorem mark? (h : Shifted m m' l l') : l.mark? = l'.mark? := by
  ext mark
  rw [Lexeme.mark?_eq_some_iff, Lexeme.mark?_eq_some_iff, h.kind, h.text]

theorem after (h : Shifted m m' l l') : BraceKind.after (some l) = BraceKind.after (some l') := by
  rw [BraceKind.after, BraceKind.after, h.kind, h.text]

theorem endLine (h : Shifted m m' l l') : l.endLine + m' = l'.endLine + m := by
  have hLine := h.line
  rw [Lexeme.endLine, Lexeme.endLine, Lexeme.chars, Lexeme.chars, h.text]
  omega

end Lexeme.Shifted

namespace Code

variable {c d : Code} {o o' n i j k p : Nat} {kind : BraceKind} {text word : String}
  {words : List String}

theorem significantBefore_eq (hPlain : ∀ l ∈ c.lexemes.toList, l.isSignificant = true)
    (hp : p < c.size) : significantBefore c.lexemes.toList p = c.before? p := by
  have hTake : (c.lexemes.toList.take p).filter (·.isSignificant) = c.lexemes.toList.take p :=
    List.filter_eq_self.mpr fun l hl => hPlain l (List.mem_of_mem_take hl)
  rw [significantBefore, hTake]
  cases p with
  | zero => rfl
  | succ p =>
    have hLt : p < c.lexemes.toList.length := Nat.lt_of_succ_lt hp
    rw [List.take_add_one, List.getElem?_eq_getElem hLt, Option.toList_some,
      List.getLast?_concat, before?, prev, Option.bind_some, at?, ← Array.getElem?_toList,
      List.getElem?_eq_getElem hLt]

theorem Fits.braceKind_eq_some_iff (h : c.Fits)
    (hPlain : ∀ l ∈ c.lexemes.toList, l.isSignificant = true) :
    c.braceKind p = some kind ↔ ∃ a r, c.Pair a r ∧ (p = a ∨ p = r) ∧
      c.isPunct a "\x7b" = true ∧ BraceKind.after (c.before? a) = kind := by
  obtain ⟨m, hBrackets, hRecorded⟩ := id h
  rw [braceKind, hBrackets, RuleScout.braceKind_eq_some_iff hRecorded.settled]
  simp only [h.pair_iff, markAt_eq_opening_iff]
  constructor
  · rintro ⟨a, r, b, hCloses, hp, hOpening, hBrace⟩
    rw [braceOf] at hBrace
    split at hBrace
    · subst b
      rw [significantBefore_eq hPlain (lt_size_of_isPunct hOpening)] at hBrace
      exact ⟨a, r, hCloses, hp, hOpening, Option.some.inj hBrace⟩
    · cases hBrace
  · rintro ⟨a, r, hCloses, hp, hOpening, rfl⟩
    refine ⟨a, r, .curly, hCloses, hp, hOpening, ?_⟩
    rw [braceOf, if_pos rfl, significantBefore_eq hPlain (lt_size_of_isPunct hOpening)]

theorem Fits.braceKind_closer (h : c.Fits) (hPair : c.Pair o k) :
    c.braceKind k = c.braceKind o := by
  obtain ⟨m, hBrackets, hRecorded⟩ := id h
  obtain ⟨b, hOpening, -⟩ := (h.pair_iff.mp hPair).sort
  rw [braceKind, braceKind, hBrackets,
    braceKind_closes hRecorded.settled (h.pair_iff.mp hPair) hOpening (.inl rfl),
    braceKind_closes hRecorded.settled (h.pair_iff.mp hPair) hOpening (.inr rfl)]

theorem Fits.matching_next_iff (h : c.Fits) : c.matching p = some (p + 1) ↔ c.Pair p (p + 1) := by
  rw [h.matching_iff_pair, or_iff_left]
  intro hPair
  have hLt := hPair.lt
  omega

theorem Fits.matching_prev_iff (h : c.Fits) : c.matching (p + 1) = some p ↔ c.Pair p (p + 1) := by
  rw [h.matching_iff_pair, or_iff_right]
  intro hPair
  have hLt := hPair.lt
  omega

/-- Positions equally far behind `o` and behind `o'`. -/
def Facing (o o' n p q : Nat) : Prop := ∃ i < n, p = o + i ∧ q = o' + i

theorem any_facing {x y : Option Nat} {f g : Nat → Bool} (h : Option.Rel (Facing o o' n) x y)
    (hSame : ∀ i < n, f (o + i) = g (o' + i)) : x.any f = y.any g := by
  cases h with
  | none => rfl
  | some hFacing =>
    obtain ⟨i, hi, rfl, rfl⟩ := hFacing
    exact hSame i hi

theorem rel_of_mem {x y : Option Nat} {r : Nat → Nat → Prop} (h : ∀ p ∈ x, ∃ q ∈ y, r p q)
    (h' : ∀ q ∈ y, ∃ p ∈ x, r p q) : Option.Rel r x y := by
  cases x with
  | none =>
    cases y with
    | none => exact .none
    | some q =>
      obtain ⟨p, hp, -⟩ := h' q rfl
      cases hp
  | some p =>
    obtain ⟨q, hq, hOwn⟩ := h p rfl
    cases hq
    exact .some hOwn

theorem prev_facing (hi : 0 < i) (hin : i ≤ n) :
    Option.Rel (Facing o o' n) (prev (o + i)) (prev (o' + i)) := by
  obtain ⟨i, rfl⟩ := Nat.exists_eq_succ_of_ne_zero hi.ne'
  exact .some ⟨i, hin, rfl, rfl⟩

theorem not_endsExpression_opener (hOpens : c.isPunct o "\x7b" = true) :
    c.endsExpression o = false := by
  obtain ⟨l, hl, hPunct⟩ := isPunct_iff.mp hOpens
  obtain ⟨hKind, hText⟩ := Lexeme.isPunct_iff.mp hPunct
  simp only [endsExpression, hl, hKind, hText]
  rfl

/-- Two codes say the same from `o` and from `o'` on, where a pair of braces of one kind opens, up
to where it closes `n` positions later. -/
structure Excerpt (c d : Code) (o o' n : Nat) : Prop where
  fits : c.Fits
  fits' : d.Fits
  plain : ∀ l ∈ c.lexemes.toList, l.isSignificant = true
  plain' : ∀ l ∈ d.lexemes.toList, l.isSignificant = true
  pair : c.Pair o (o + n)
  pair' : d.Pair o' (o' + n)
  opens : c.isPunct o "\x7b" = true
  kind : c.braceKind o = d.braceKind o'
  lexemes : ∃ m m', ∀ i ≤ n, ∃ l l', c.at? (o + i) = some l ∧ d.at? (o' + i) = some l' ∧
    Lexeme.Shifted m m' l l'

namespace Excerpt

/-! ## Lexemes -/

section Lexemes

variable (h : Excerpt c d o o' n)
include h

theorem isPunct_eq (hi : i ≤ n) (text : String) :
    c.isPunct (o + i) text = d.isPunct (o' + i) text := by
  obtain ⟨m, m', hLexemes⟩ := h.lexemes
  obtain ⟨l, l', hl, hl', hSame⟩ := hLexemes i hi
  rw [isPunct, isPunct, hl, hl']
  exact hSame.isPunct text

theorem isKeyword_eq (hi : i ≤ n) (word : String) :
    c.isKeyword (o + i) word = d.isKeyword (o' + i) word := by
  obtain ⟨m, m', hLexemes⟩ := h.lexemes
  obtain ⟨l, l', hl, hl', hSame⟩ := hLexemes i hi
  simp only [isKeyword, hl, hl', Option.any_some, Lexeme.isKeyword, hSame.kind, hSame.text]

theorem isKeywordOf_eq (hi : i ≤ n) (words : List String) :
    c.isKeywordOf (o + i) words = d.isKeywordOf (o' + i) words := by
  obtain ⟨m, m', hLexemes⟩ := h.lexemes
  obtain ⟨l, l', hl, hl', hSame⟩ := hLexemes i hi
  simp only [isKeywordOf, hl, hl', Option.any_some, hSame.kind, hSame.text]

theorem markAt_eq (hi : i ≤ n) :
    markAt c.lexemes.toList (o + i) = markAt d.lexemes.toList (o' + i) := by
  obtain ⟨m, m', hLexemes⟩ := h.lexemes
  obtain ⟨l, l', hl, hl', hSame⟩ := hLexemes i hi
  rw [markAt, markAt, Array.getElem?_toList, Array.getElem?_toList]
  exact (congrArg (·.bind Lexeme.mark?) hl).trans
    (hSame.mark?.trans (congrArg (·.bind Lexeme.mark?) hl').symm)

theorem lt_size (hi : i ≤ n) : o' + i < d.size := by
  obtain ⟨m, m', hLexemes⟩ := h.lexemes
  obtain ⟨l, l', -, hl', -⟩ := hLexemes i hi
  exact (Array.getElem?_eq_some_iff.mp hl').1

theorem opens' : d.isPunct o' "\x7b" = true := (h.isPunct_eq (Nat.zero_le n) _).symm.trans h.opens

theorem symm : Excerpt d c o' o n where
  fits := h.fits'
  fits' := h.fits
  plain := h.plain'
  plain' := h.plain
  pair := h.pair'
  pair' := h.pair
  opens := h.opens'
  kind := h.kind.symm
  lexemes := by
    obtain ⟨m, m', hLexemes⟩ := h.lexemes
    refine ⟨m', m, fun i hi => ?_⟩
    obtain ⟨l, l', hl, hl', hSame⟩ := hLexemes i hi
    exact ⟨l', l, hl', hl, hSame.symm⟩

/-! ## Brackets -/

theorem between_eq (hij : i < j) (hj : j ≤ n) :
    between c.lexemes.toList (o + i) (o + j) = between d.lexemes.toList (o' + i) (o' + j) := by
  induction j with
  | zero => cases hij
  | succ j ih =>
    rcases Nat.lt_succ_iff_lt_or_eq.mp hij with hLt | rfl
    · rw [← Nat.add_assoc, ← Nat.add_assoc, between_succ (by omega), between_succ (by omega),
        ih hLt (by omega), h.markAt_eq (by omega)]
    · rw [← Nat.add_assoc, ← Nat.add_assoc, between_next, between_next]

theorem pair_facing (hj : j ≤ n) (hPair : c.Pair (o + i) (o + j)) :
    d.Pair (o' + i) (o' + j) := by
  obtain ⟨hLt, ⟨b, hOpening, hClosing⟩, hInner⟩ := h.fits.pair_iff.mp hPair
  have hij : i < j := by omega
  rw [h.markAt_eq (by omega)] at hOpening
  rw [h.markAt_eq hj] at hClosing
  rw [h.between_eq hij hj] at hInner
  exact h.fits'.pair_iff.mpr ⟨by omega, ⟨b, hOpening, hClosing⟩, hInner⟩

theorem pair_iff (hj : j ≤ n) : c.Pair (o + i) (o + j) ↔ d.Pair (o' + i) (o' + j) :=
  ⟨h.pair_facing hj, h.symm.pair_facing hj⟩

/-- What is in a pair inside the braces is faced by what is in a pair there. -/
theorem exists_matching (hi : 0 < i) (hin : i < n) (hMatching : c.matching (o + i) = some p) :
    ∃ j, 0 < j ∧ j < n ∧ p = o + j ∧ d.matching (o' + i) = some (o' + j) := by
  have hWhole := h.fits.whole_pair h.pair
  have hOuter := h.fits.matching_closer h.pair
  rcases h.fits.matching_iff_pair.mp hMatching with hPair | hPair
  · have hEnds := (hWhole _ _ hPair).mp (by omega)
    obtain ⟨j, rfl⟩ := Nat.exists_eq_add_of_le hEnds.1
    have hLt := hPair.lt
    have hLast : j ≠ n := by
      rintro rfl
      have hSame := h.fits.opener_unique hPair h.pair
      omega
    have hFacing := h.pair_facing (by omega) hPair
    exact ⟨j, by omega, by omega, rfl, hFacing.matching⟩
  · have hEnds := (hWhole _ _ hPair).mpr (by omega)
    obtain ⟨j, rfl⟩ := Nat.exists_eq_add_of_le hEnds.1
    have hLt := hPair.lt
    have hFirst : j ≠ 0 := by
      rintro rfl
      have hSame := hPair.closer_unique h.pair
      omega
    have hFacing := h.pair_facing hin.le hPair
    exact ⟨j, by omega, by omega, rfl, h.fits'.matching_closer hFacing⟩

theorem matching_facing (hi : 0 < i) (hin : i < n) :
    Option.Rel (fun p q => ∃ j, 0 < j ∧ j < n ∧ p = o + j ∧ q = o' + j) (c.matching (o + i))
      (d.matching (o' + i)) := by
  refine rel_of_mem (fun p hp => ?_) fun q hq => ?_
  · obtain ⟨j, hj, hjn, hOwn, hOther⟩ := h.exists_matching hi hin hp
    exact ⟨_, hOther, j, hj, hjn, hOwn, rfl⟩
  · obtain ⟨j, hj, hjn, hOwn, hOther⟩ := h.symm.exists_matching hi hin hq
    exact ⟨_, hOther, j, hj, hjn, rfl, hOwn⟩

theorem beforeMatching_facing (hi : 0 < i) (hin : i < n) :
    Option.Rel (Facing o o' n) (c.beforeMatching (o + i)) (d.beforeMatching (o' + i)) := by
  have hFacing := h.matching_facing hi hin
  rw [beforeMatching, beforeMatching]
  revert hFacing
  generalize c.matching (o + i) = x
  generalize d.matching (o' + i) = y
  rintro (⟨j, hj, hjn, rfl, rfl⟩ | -)
  · exact prev_facing hj hjn.le
  · exact .none

theorem exists_parent (hi : 0 < i) (hin : i < n) :
    ∃ j ≤ n, c.parent (o + i) = some (o + j) ∧ d.parent (o' + i) = some (o' + j) := by
  obtain ⟨q, e, hParent, hPair, hoq, hqi, hie, hen⟩ :=
    h.fits.exists_parent h.pair (Nat.lt_add_of_pos_right hi) (Nat.add_lt_add_left hin o)
  obtain ⟨j, rfl⟩ := Nat.exists_eq_add_of_le hoq
  obtain ⟨k, rfl⟩ := Nat.exists_eq_add_of_le (hoq.trans hPair.lt.le)
  have hFacing := h.pair_facing (by omega) hPair
  refine ⟨j, by omega, hParent, h.fits'.parent_eq_some_iff.mpr
    ⟨⟨o' + k, hFacing, by omega, by omega⟩, fun a r hOther hai hir => ?_⟩⟩
  rcases Nat.lt_or_ge a o' with hao | hoa
  · omega
  · have hEnds := (h.fits'.whole_pair h.pair' a r hOther).mp (by omega)
    obtain ⟨a, rfl⟩ := Nat.exists_eq_add_of_le hoa
    obtain ⟨r, rfl⟩ := Nat.exists_eq_add_of_le hEnds.1
    have hOwn := h.symm.pair_facing (by omega) hOther
    have hLast := (h.fits.parent_eq_some_iff.mp hParent).2 _ _ hOwn (by omega) (by omega)
    omega

theorem after_before?_eq (hi : 0 < i) (hin : i ≤ n) :
    BraceKind.after (c.before? (o + i)) = BraceKind.after (d.before? (o' + i)) := by
  obtain ⟨m, m', hLexemes⟩ := h.lexemes
  obtain ⟨i, rfl⟩ := Nat.exists_eq_succ_of_ne_zero hi.ne'
  obtain ⟨l, l', hl, hl', hSame⟩ := hLexemes i (Nat.le_of_succ_le hin)
  have hBefore : c.before? (o + (i + 1)) = some l := hl
  have hBefore' : d.before? (o' + (i + 1)) = some l' := hl'
  rw [hBefore, hBefore']
  exact hSame.after

theorem braceKind_inside (hi : 0 < i) (hin : i < n) (hKind : c.braceKind (o + i) = some kind) :
    d.braceKind (o' + i) = some kind := by
  obtain ⟨a, r, hPair, hSide, hOpening, rfl⟩ := (h.fits.braceKind_eq_some_iff h.plain).mp hKind
  obtain ⟨x, y, hx, hxn, hy, rfl, rfl, hAt⟩ : ∃ x y, 0 < x ∧ x < n ∧ y < n ∧ a = o + x ∧
      r = o + y ∧ (i = x ∨ i = y) := by
    rcases hSide with rfl | rfl
    · obtain ⟨y, hy, hyn, rfl, -⟩ := h.exists_matching hi hin hPair.matching
      exact ⟨i, y, hi, hin, hyn, rfl, rfl, .inl rfl⟩
    · obtain ⟨x, hx, hxn, rfl, -⟩ := h.exists_matching hi hin (h.fits.matching_closer hPair)
      exact ⟨x, i, hx, hxn, hin, rfl, rfl, .inr rfl⟩
  rw [h.isPunct_eq hxn.le] at hOpening
  exact (h.fits'.braceKind_eq_some_iff h.plain').mpr ⟨_, _, h.pair_facing hy.le hPair,
    hAt.imp (congrArg (o' + ·)) (congrArg (o' + ·)), hOpening, (h.after_before?_eq hx hxn.le).symm⟩

theorem braceKind_eq (hi : i ≤ n) : c.braceKind (o + i) = d.braceKind (o' + i) := by
  -- the outer braces are of one kind; what decides an inner kind is inside the outer braces
  rcases Nat.eq_zero_or_pos i with rfl | hPos
  · exact h.kind
  rcases Nat.eq_or_lt_of_le hi with rfl | hLt
  · rw [h.fits.braceKind_closer h.pair, h.fits'.braceKind_closer h.pair', h.kind]
  · ext kind
    exact ⟨h.braceKind_inside hPos hLt, h.symm.braceKind_inside hPos hLt⟩

/-! ## Expressions and statements -/

theorem closesHeader_eq (hi : 0 < i) (hin : i < n) :
    c.closesHeader (o + i) = d.closesHeader (o' + i) := by
  obtain ⟨m, m', hLexemes⟩ := h.lexemes
  refine any_facing (h.beforeMatching_facing hi hin) fun j hj => ?_
  obtain ⟨l, l', hl, hl', hSame⟩ := hLexemes j hj.le
  simp only [hl, hl', hSame.kind, hSame.text]
  split
  · rfl
  · rename_i hKind
    rcases Nat.eq_zero_or_pos j with rfl | hPos
    · obtain ⟨k, hk, hPunct⟩ := isPunct_iff.mp h.opens'
      cases hl'.symm.trans hk
      cases (Lexeme.isPunct_iff.mp hPunct).1.symm.trans hKind
    · exact any_facing (prev_facing hPos hj.le) fun k hk =>
        h.isKeyword_eq hk.le _
  · rfl

theorem followsHeader_eq (hi : 0 < i) (hin : i ≤ n) (words : List String) :
    c.followsHeader (o + i) words = d.followsHeader (o' + i) words := by
  refine any_facing (prev_facing hi hin) fun j hj => ?_
  rcases Nat.eq_zero_or_pos j with rfl | hPos
  · rw [Nat.add_zero, Nat.add_zero, isPunct_of_isPunct h.opens (by decide),
      isPunct_of_isPunct h.opens' (by decide)]
    rfl
  · have hHead : (c.beforeMatching (o + j)).any (c.isKeywordOf · words) =
        (d.beforeMatching (o' + j)).any (d.isKeywordOf · words) :=
      any_facing (h.beforeMatching_facing hPos hj) fun k hk => h.isKeywordOf_eq hk.le words
    rw [h.isPunct_eq hj.le, hHead]

theorem closesArrowBody_eq (hi : 0 < i) (hin : i < n) :
    c.closesArrowBody (o + i) = d.closesArrowBody (o' + i) :=
  any_facing (h.beforeMatching_facing hi hin) fun _ hj => h.isPunct_eq hj.le _

theorem endsExpression_eq (hin : i < n) : c.endsExpression (o + i) = d.endsExpression (o' + i) := by
  rcases Nat.eq_zero_or_pos i with rfl | hPos
  · exact (not_endsExpression_opener h.opens).trans (not_endsExpression_opener h.opens').symm
  obtain ⟨m, m', hLexemes⟩ := h.lexemes
  obtain ⟨l, l', hl, hl', hSame⟩ := hLexemes i hin.le
  simp only [endsExpression, hl, hl', hSame.kind, hSame.text, h.closesHeader_eq hPos hin,
    h.braceKind_eq hin.le, h.closesArrowBody_eq hPos hin]

theorem insideExpressionBrackets_eq (hi : 0 < i) (hin : i < n) :
    c.insideExpressionBrackets (o + i) = d.insideExpressionBrackets (o' + i) := by
  obtain ⟨j, hj, hParent, hParent'⟩ := h.exists_parent hi hin
  rw [insideExpressionBrackets, insideExpressionBrackets, hParent, hParent', Option.any_some,
    Option.any_some, h.isPunct_eq hj, h.isPunct_eq hj, h.braceKind_eq hj]

end Lexemes

end Excerpt

end Code

/-! ## Semicolons -/

namespace Semi

variable {c d : Code} {o o' n i : Nat} (h : c.Excerpt d o o' n)
include h

theorem statementEndsAfter_eq (hin : i < n) :
    statementEndsAfter c (o + i) = statementEndsAfter d (o' + i) := by
  obtain ⟨m, m', hLexemes⟩ := h.lexemes
  obtain ⟨l, l', hl, hl', hSame⟩ := hLexemes i hin.le
  obtain ⟨k, k', hk, hk', hNext⟩ := hLexemes (i + 1) hin
  have hBehind : c.after? (o + i) = some k := hk
  have hBehind' : d.after? (o' + i) = some k' := hk'
  have hBrace : c.braceKind (o + i + 1) = d.braceKind (o' + i + 1) := h.braceKind_eq hin
  have hLine : k.line = l.endLine ↔ k'.line = l'.endLine := by
    have hOwn := hSame.endLine
    have hBeside := hNext.line
    omega
  simp only [statementEndsAfter, hl, hl', hBehind, hBehind', hLine, hNext.isPunct, hBrace,
    hNext.kind, hNext.text]

theorem isRisky_eq (hin : i < n) : isRisky c (o + i) = isRisky d (o' + i) := by
  obtain ⟨m, m', hLexemes⟩ := h.lexemes
  obtain ⟨l, l', hl, hl', hSame⟩ := hLexemes i hin.le
  obtain ⟨k, k', hk, hk', hNext⟩ := hLexemes (i + 1) hin
  have hBehind : c.after? (o + i) = some k := hk
  have hBehind' : d.after? (o' + i) = some k' := hk'
  have hLine : l.line < k.line ↔ l'.line < k'.line := by
    have hOwn := hSame.line
    have hBeside := hNext.line
    omega
  simp only [isRisky, hl, hl', hBehind, hBehind', hLine, hNext.kind, hNext.text]

theorem isMissingAfter_eq (hi : 0 < i) (hin : i < n) :
    isMissingAfter c (o + i) = isMissingAfter d (o' + i) := by
  rw [isMissingAfter, isMissingAfter, h.endsExpression_eq hin, h.insideExpressionBrackets_eq hi hin,
    statementEndsAfter_eq h hin]

theorem isExtra_eq (hi : 0 < i) (hin : i < n) : isExtra c (o + i) = isExtra d (o' + i) := by
  obtain ⟨j, hj, hParent, hParent'⟩ := h.exists_parent hi hin
  have hPrev : (Code.prev (o + i)).any c.endsExpression =
      (Code.prev (o' + i)).any d.endsExpression :=
    Code.any_facing (Code.prev_facing hi hin.le) fun j hj => h.endsExpression_eq hj
  rw [isExtra, isExtra, hParent, hParent', Option.any_some, Option.any_some,
    h.isPunct_eq hin.le, h.isPunct_eq hj, hPrev, isRisky_eq h hin, statementEndsAfter_eq h hin]

theorem mem_sites_facing (options : Options) (hi : 0 < i) (hin : i < n) {behind : Bool}
    {message : String} (hSite : ⟨o + i, behind, message⟩ ∈ sites c options) :
    ⟨o' + i, behind, message⟩ ∈ sites d options := by
  have hAt : o' + i ∈ d.positions := List.mem_range.mpr (h.lt_size hin.le)
  rw [sites] at hSite ⊢
  split at hSite
  · rename_i hNever
    rw [if_pos hNever]
    obtain ⟨p, hp, hEq⟩ := List.mem_map.mp hSite
    cases hEq
    have hExtra := (List.mem_filter.mp hp).2
    rw [isExtra_eq h hi hin] at hExtra
    exact List.mem_map.mpr ⟨_, List.mem_filter.mpr ⟨hAt, hExtra⟩, rfl⟩
  · rename_i hAlways
    rw [if_neg hAlways]
    obtain ⟨p, hp, hEq⟩ := List.mem_map.mp hSite
    cases hEq
    have hMissing := (List.mem_filter.mp hp).2
    rw [isMissingAfter_eq h hi hin] at hMissing
    exact List.mem_map.mpr ⟨_, List.mem_filter.mpr ⟨hAt, hMissing⟩, rfl⟩

end Semi

/-! ## Commas -/

namespace CommaDangle

section Lists

variable {c : Code} {k p last : Nat} {policy : Policy} {options : Options} {s : Site}

theorem tail?_spec (h : tail? c k = some (p, last)) :
    p + 1 = k ∧ (c.isPunct p "," = false → last = p) := by
  rw [tail?] at h
  split at h
  · obtain ⟨q, hPrev, hTail⟩ := Option.bind_eq_some_iff.mp h
    obtain rfl : q + 1 = k := by
      cases k with
      | zero => cases hPrev
      | succ k => exact congrArg (· + 1) (Option.some.inj hPrev).symm
    split at hTail
    · cases hTail
    · split at hTail
      · rename_i hComma
        obtain ⟨e, -, hOwn⟩ := Option.map_eq_some_iff.mp hTail
        cases hOwn
        exact ⟨rfl, fun hNone => absurd (hComma.symm.trans hNone) (by decide)⟩
      · cases hTail
        exact ⟨rfl, fun _ => rfl⟩
  · cases h

/-- What is reported about a list is directly in front of its closing bracket. -/
theorem position_succ (h : site? c policy k = some s) : s.position + 1 = k := by
  rw [site?] at h
  split at h
  · rename_i p last closer hTail hCloser
    obtain ⟨hBefore, hLast⟩ := tail?_spec hTail
    dsimp only at h
    split at h
    · cases h
      exact hBefore
    · rename_i hTrailing
      cases h
      rw [Site.stop, hLast hTrailing]
      exact hBefore
    · cases h
  · cases h

theorem mem_sites_iff :
    s ∈ sites c options ↔
      site? c (.ofName (options.string 0 "never")) (s.position + 1) = some s := by
  rw [sites, List.mem_filterMap]
  constructor
  · rintro ⟨k, -, hSite⟩
    rwa [position_succ hSite]
  · intro hSite
    refine ⟨_, List.mem_range.mpr ?_, hSite⟩
    rw [site?] at hSite
    split at hSite
    · rename_i hCloser
      exact (Array.getElem?_eq_some_iff.mp hCloser).1
    · cases hSite

end Lists

variable {c d : Code} {o o' n i : Nat} (h : c.Excerpt d o o' n)
include h

theorem isListEnd_eq (hin : i ≤ n) : isListEnd c (o + i) = isListEnd d (o' + i) := by
  rw [isListEnd, isListEnd, h.isPunct_eq hin, h.isPunct_eq hin, h.braceKind_eq hin]

/-- What is looked at behind a comma or the last element faces its counterpart. -/
theorem tail?_facing (hi : 0 < i) (hin : i ≤ n) :
    Option.Rel (fun x y => Code.Facing o o' n x.1 y.1 ∧ Code.Facing o o' n x.2 y.2)
      (tail? c (o + i)) (tail? d (o' + i)) := by
  obtain ⟨j, rfl⟩ := Nat.exists_eq_succ_of_ne_zero hi.ne'
  have hEmpty : c.matching (o + (j + 1)) = some (o + j) ↔
      d.matching (o' + (j + 1)) = some (o' + j) :=
    h.fits.matching_prev_iff.trans ((h.pair_iff hin).trans h.fits'.matching_prev_iff.symm)
  have hFacing : Code.Facing o o' n (o + j) (o' + j) := ⟨j, hin, rfl, rfl⟩
  have hOwn : tail? c (o + (j + 1)) = if isListEnd c (o + (j + 1)) then
      if c.matching (o + (j + 1)) = some (o + j) then none
      else if c.isPunct (o + j) "," then (Code.prev (o + j)).map (o + j, ·)
      else some (o + j, o + j) else none := rfl
  have hOther : tail? d (o' + (j + 1)) = if isListEnd d (o' + (j + 1)) then
      if d.matching (o' + (j + 1)) = some (o' + j) then none
      else if d.isPunct (o' + j) "," then (Code.prev (o' + j)).map (o' + j, ·)
      else some (o' + j, o' + j) else none := rfl
  rw [hOwn, hOther, isListEnd_eq h hin, h.isPunct_eq (Nat.le_of_succ_le hin)]
  simp only [hEmpty]
  split
  · split
    · exact .none
    · split
      · rename_i hComma
        rcases Nat.eq_zero_or_pos j with rfl | hPos
        · rw [Nat.add_zero, Code.isPunct_of_isPunct h.opens' (by decide)] at hComma
          cases hComma
        · obtain ⟨k, rfl⟩ := Nat.exists_eq_succ_of_ne_zero hPos.ne'
          exact .some ⟨hFacing, k, Nat.lt_of_succ_lt hin, rfl, rfl⟩
      · exact .some ⟨hFacing, hFacing⟩
  · exact .none

theorem site?_facing (policy : Policy) (hi : 0 < i) (hin : i ≤ n) :
    Option.Rel (fun s s' => ∃ j < n, s.position = o + j ∧ s' = { s with position := o' + j })
      (site? c policy (o + i)) (site? d policy (o' + i)) := by
  obtain ⟨m, m', hLexemes⟩ := h.lexemes
  obtain ⟨l, l', hl, hl', hCloser⟩ := hLexemes i hin
  -- commas and last elements face each other, so the lines are left to compare
  have hTail := tail?_facing h hi hin
  rw [site?, site?, hl, hl']
  revert hTail
  generalize tail? c (o + i) = x
  generalize tail? d (o' + i) = y
  rintro (@⟨⟨_, _⟩, ⟨_, _⟩, ⟨j, hj, rfl, rfl⟩, k, hk, rfl, rfl⟩ | -)
  · obtain ⟨e, e', he, he', hLast⟩ := hLexemes k hk.le
    have hLine : e.endLine < l.line ↔ e'.endLine < l'.line := by
      have hOwn := hLast.endLine
      have hBeside := hCloser.line
      omega
    simp only [he, he', Option.any_some, hLine, h.isPunct_eq hj.le]
    cases policy.wantsComma (decide (e'.endLine < l'.line)) with
    | none => exact .none
    | some wanted =>
      cases wanted with
      | true =>
        cases d.isPunct (o' + j) "," with
        | true => exact .none
        | false => exact .some ⟨k, hk, rfl, rfl⟩
      | false =>
        cases d.isPunct (o' + j) "," with
        | true => exact .some ⟨j, hj, rfl, rfl⟩
        | false => exact .none
  · exact .none

theorem mem_sites_facing (options : Options) (hin : i < n) {behind : Bool} {message : String}
    (hSite : ⟨o + i, behind, message⟩ ∈ sites c options) :
    ⟨o' + i, behind, message⟩ ∈ sites d options := by
  have hFacing := site?_facing h (.ofName (options.string 0 "never")) (Nat.succ_pos i) hin
  have hOwn : site? c (.ofName (options.string 0 "never")) (o + (i + 1)) =
    some ⟨o + i, behind, message⟩ := mem_sites_iff.mp hSite
  refine mem_sites_iff.mpr (show site? d _ (o' + (i + 1)) = _ from ?_)
  rw [hOwn] at hFacing
  generalize site? d (.ofName (options.string 0 "never")) (o' + (i + 1)) = y at hFacing ⊢
  cases hFacing with
  | some hFaces =>
    obtain ⟨j, -, hPosition, rfl⟩ := hFaces
    rw [Nat.add_left_cancel hPosition]

end CommaDangle

/-! ## Blocks -/

namespace Empty

theorem position_of_site? {c : Code} {allowed : Bool} {p : Nat} {s : Site}
    (hSite : site? c allowed p = some s) : s.position = p := by
  rw [site?] at hSite
  generalize context? c p = context at hSite
  rcases context with _ | ⟨_ | _ | _⟩ <;> cases allowed <;> cases hSite <;> rfl

variable {c d : Code} {o o' n i : Nat} (h : c.Excerpt d o o' n)
include h

theorem context?_eq (hi : 0 < i) (hin : i < n) : context? c (o + i) = context? d (o' + i) := by
  have hHeader := h.followsHeader_eq hi hin.le
  obtain ⟨j, rfl⟩ := Nat.exists_eq_succ_of_ne_zero hi.ne'
  have hj : j ≤ n := Nat.le_of_lt (Nat.lt_of_succ_lt hin)
  have hPrev : Code.prev (o + (j + 1)) = some (o + j) := rfl
  have hPrev' : Code.prev (o' + (j + 1)) = some (o' + j) := rfl
  simp only [context?, hHeader, hPrev, hPrev', h.isKeyword_eq hj, h.isKeywordOf_eq hj,
    h.isPunct_eq hj, h.braceKind_eq hj]

theorem site?_facing (allowed : Bool) (hi : 0 < i) (hin : i < n) {behind : Bool}
    {message : String} (hSite : site? c allowed (o + i) = some ⟨o + i, behind, message⟩) :
    site? d allowed (o' + i) = some ⟨o' + i, behind, message⟩ := by
  rw [site?, context?_eq h hi hin] at hSite
  rw [site?]
  generalize context? d (o' + i) = context at hSite ⊢
  rcases context with _ | ⟨_ | _ | _⟩ <;> cases allowed <;> cases hSite <;> rfl

end Empty

end RuleScout
