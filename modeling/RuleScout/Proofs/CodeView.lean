import RuleScout.Proofs.Enclosing
import RuleScout.Rule.Builtin

/-!
# The code of a unit

The code of a source unit is read from its significant tokens alone. It is the unit with its
trivia left out: the significant tokens are numbered in order, and under this numbering a token has
the neighbours, the brackets and the kind of brace that it has in the unit.
-/

set_option autoImplicit false

namespace RuleScout

variable {ls : List Lexeme} {i j o c : Nat} {t : Lexeme} {b : Bracket} {n m : Nesting}

/-! ## Leaving out trivia -/

/-- The number of significant lexemes in front of an index. -/
def rankIn (ls : List Lexeme) (i : Nat) : Nat := (ls.take i).countP (·.isSignificant)

/-- The lexemes without trivia. -/
def significantOf (ls : List Lexeme) : List Lexeme := ls.filter (·.isSignificant)

def isSignificantAt (ls : List Lexeme) (i : Nat) : Bool := ls[i]?.any (·.isSignificant)

theorem isSignificantAt_iff : isSignificantAt ls i ↔ ∃ t, ls[i]? = some t ∧ t.isSignificant :=
  Option.any_eq_true _ _

theorem rankIn_succ (ls : List Lexeme) (i : Nat) :
    rankIn ls (i + 1) = rankIn ls i + if isSignificantAt ls i then 1 else 0 := by
  rw [rankIn, List.take_add_one, List.countP_append, isSignificantAt, rankIn]
  cases ls[i]? with
  | none => simp
  | some t => simp [List.countP_cons]

theorem rankIn_mono (hij : i ≤ j) : rankIn ls i ≤ rankIn ls j := by
  obtain ⟨k, rfl⟩ := Nat.exists_eq_add_of_le hij
  exact (List.take_sublist_take_left (Nat.le_add_right i k)).countP_le

theorem rankIn_lt_iff (hi : isSignificantAt ls i) : rankIn ls i < rankIn ls j ↔ i < j := by
  constructor
  · intro hLt
    by_contra hNot
    exact absurd hLt (Nat.not_lt.mpr (rankIn_mono (Nat.not_lt.mp hNot)))
  · intro hLt
    have hLe : rankIn ls (i + 1) ≤ rankIn ls j := rankIn_mono hLt
    rw [rankIn_succ, if_pos hi] at hLe
    exact hLe

theorem rankIn_inj (hi : isSignificantAt ls i) (hj : isSignificantAt ls j)
    (h : rankIn ls i = rankIn ls j) : i = j := by
  rcases Nat.lt_trichotomy i j with hLt | rfl | hGt
  · exact absurd ((rankIn_lt_iff hi).mpr hLt) (by omega)
  · rfl
  · exact absurd ((rankIn_lt_iff hj).mpr hGt) (by omega)

theorem rankIn_length (ls : List Lexeme) : rankIn ls ls.length = (significantOf ls).length := by
  rw [rankIn, List.take_length, List.countP_eq_length_filter, significantOf]

theorem rankIn_min (ls : List Lexeme) (i : Nat) : rankIn ls (min i ls.length) = rankIn ls i := by
  rw [rankIn, ← List.take_eq_take_min, rankIn]

theorem take_significantOf (ls : List Lexeme) (i : Nat) :
    (significantOf ls).take (rankIn ls i) = significantOf (ls.take i) := by
  conv_lhs => rw [← List.take_append_drop i ls]
  rw [significantOf, List.filter_append, rankIn, List.take_append_drop, List.countP_eq_length_filter,
    List.take_left]
  rfl

theorem drop_significantOf (ls : List Lexeme) (i : Nat) :
    (significantOf ls).drop (rankIn ls i) = significantOf (ls.drop i) := by
  conv_lhs => rw [← List.take_append_drop i ls]
  rw [significantOf, List.filter_append, rankIn, List.take_append_drop, List.countP_eq_length_filter,
    List.drop_left]
  rfl

theorem getElem?_significantOf (hi : isSignificantAt ls i) :
    (significantOf ls)[rankIn ls i]? = ls[i]? := by
  obtain ⟨t, hAt, hSignificant⟩ := isSignificantAt_iff.mp hi
  obtain ⟨hLt, rfl⟩ := List.getElem?_eq_some_iff.mp hAt
  rw [← List.head?_drop, drop_significantOf, ← List.getElem_cons_drop hLt, significantOf,
    List.filter_cons_of_pos hSignificant, hAt]
  rfl

/-- The significant lexemes are numbered without gaps. -/
theorem map_rankIn_range (ls : List Lexeme) (n : Nat) :
    ((List.range n).filter (isSignificantAt ls)).map (rankIn ls) = List.range (rankIn ls n) := by
  induction n with
  | zero => rfl
  | succ n ih =>
    rw [List.range_succ, List.filter_append, List.map_append, ih, rankIn_succ]
    cases hSignificant : isSignificantAt ls n with
    | true => simp [hSignificant, List.range_succ]
    | false => simp [hSignificant]

theorem exists_of_lt_length {p : Nat} (hp : p < (significantOf ls).length) :
    ∃ i, isSignificantAt ls i ∧ rankIn ls i = p := by
  rw [← rankIn_length, ← List.mem_range, ← map_rankIn_range, List.mem_map] at hp
  obtain ⟨i, hi, hRank⟩ := hp
  exact ⟨i, (List.mem_filter.mp hi).2, hRank⟩

/-! ## Brackets without trivia -/

theorem isSignificant_of_mark? {m : Mark} (h : t.mark? = some m) : t.isSignificant = true := by
  rw [Lexeme.isSignificant, (Lexeme.mark?_eq_some_iff.mp h).1]
  rfl

theorem marks_significantOf (ls : List Lexeme) : marks (significantOf ls) = marks ls := by
  rw [marks, marks, significantOf, List.filterMap_filter]
  congr 1
  funext t
  split
  · rfl
  · rename_i hTrivia
    cases hMark : t.mark? with
    | none => rfl
    | some m => exact absurd (isSignificant_of_mark? hMark) hTrivia

theorem isSignificantAt_of_markAt {m : Mark} (h : markAt ls i = some m) : isSignificantAt ls i := by
  obtain ⟨t, hAt, hMark⟩ := Option.bind_eq_some_iff.mp h
  exact isSignificantAt_iff.mpr ⟨t, hAt, isSignificant_of_mark? hMark⟩

theorem markAt_significantOf (hi : isSignificantAt ls i) :
    markAt (significantOf ls) (rankIn ls i) = markAt ls i := by
  rw [markAt, markAt, getElem?_significantOf hi]

theorem between_significantOf (ho : isSignificantAt ls o) (hoc : o < c) :
    between (significantOf ls) (rankIn ls o) (rankIn ls c) = between ls o c := by
  have hNext : rankIn (ls.take c) (o + 1) = rankIn ls o + 1 := by
    rw [rankIn, List.take_take, Nat.min_eq_left hoc, ← rankIn, rankIn_succ, if_pos ho]
  rw [between, between, take_significantOf, ← hNext, drop_significantOf, marks_significantOf]

theorem closes_significantOf_iff (ho : isSignificantAt ls o) (hc : isSignificantAt ls c) :
    Closes (significantOf ls) (rankIn ls o) (rankIn ls c) ↔ Closes ls o c := by
  constructor
  · rintro ⟨hLt, hSort, hInner⟩
    rw [markAt_significantOf ho, markAt_significantOf hc] at hSort
    rw [rankIn_lt_iff ho] at hLt
    rw [between_significantOf ho hLt] at hInner
    exact ⟨hLt, hSort, hInner⟩
  · rintro ⟨hLt, hSort, hInner⟩
    rw [← markAt_significantOf ho, ← markAt_significantOf hc] at hSort
    rw [← between_significantOf ho hLt] at hInner
    exact ⟨(rankIn_lt_iff ho).mpr hLt, hSort, hInner⟩

theorem Closes.isSignificantAt (h : Closes ls o c) :
    isSignificantAt ls o ∧ isSignificantAt ls c := by
  obtain ⟨b, hOpening, hClosing⟩ := h.sort
  exact ⟨isSignificantAt_of_markAt hOpening, isSignificantAt_of_markAt hClosing⟩

theorem Closes.without_trivia (h : Closes ls o c) :
    Closes (significantOf ls) (rankIn ls o) (rankIn ls c) :=
  (closes_significantOf_iff h.isSignificantAt.1 h.isSignificantAt.2).mpr h

/-- A pair of brackets among the significant lexemes is one among all lexemes. -/
theorem exists_of_closes {p q : Nat} (h : Closes (significantOf ls) p q) :
    ∃ o c, Closes ls o c ∧ rankIn ls o = p ∧ rankIn ls c = q := by
  obtain ⟨b, hOpening, hClosing⟩ := h.sort
  obtain ⟨o, ho, rfl⟩ := exists_of_lt_length (lt_length_of_markAt hOpening)
  obtain ⟨c, hc, rfl⟩ := exists_of_lt_length (lt_length_of_markAt hClosing)
  exact ⟨o, c, (closes_significantOf_iff ho hc).mp h, rfl, rfl⟩

theorem braceOf_significantOf (ls : List Lexeme) (i : Nat) (b : Bracket) :
    braceOf (significantOf ls) (rankIn ls i) b = braceOf ls i b := by
  rw [braceOf, braceOf, significantBefore, significantBefore, take_significantOf, significantOf,
    List.filter_filter]
  simp only [Bool.and_self]

theorem braceKind_eq_some_iff {k : BraceKind} (h : Settled ls 0 n.pairs) :
    (Structure.ofNesting n).braceKind i = some k ↔
      ∃ o c b, Closes ls o c ∧ (i = o ∨ i = c) ∧ markAt ls o = some (.opening b) ∧
        braceOf ls o b = some k := by
  constructor
  · intro hKind
    obtain ⟨p, hPair, hBrace⟩ := Option.bind_eq_some_iff.mp hKind
    have hp : p ∈ n.pairs := List.mem_of_find?_eq_some hPair
    have hAt : p.opener = i ∨ p.closer = i := by simpa using List.find?_some hPair
    obtain ⟨b, hOpening, -⟩ := (h.closes p hp).sort
    rw [h.brace p hp b hOpening] at hBrace
    exact ⟨_, _, b, h.closes p hp, hAt.imp Eq.symm Eq.symm, hOpening, hBrace⟩
  · rintro ⟨o, c, b, hCloses, hi, hOpening, hBrace⟩
    rw [braceKind_closes h hCloses hOpening hi, hBrace]

/-! ## The structure without trivia -/

theorem exists_recorded_significantOf (h : nest 0 [] none ls = .ok n) :
    ∃ m, nest 0 [] none (significantOf ls) = .ok m ∧ Recorded (significantOf ls) m := by
  have hJudged (ls : List Lexeme) : Judged ls 0 (nest 0 [] none ls) :=
    judged_nest (.start _) (Nat.zero_le _) List.drop_zero rfl fun d hd => by cases hd
  have hNested := hJudged ls
  have hCode := hJudged (significantOf ls)
  rw [h] at hNested
  cases hNest : nest 0 [] none (significantOf ls) with
  | ok m => exact ⟨m, rfl, recorded_of_nest hNest⟩
  | error e =>
    rw [hNest] at hCode
    have hNot := hCode.1
    rw [marks_significantOf] at hNot
    exact absurd hNested.1 hNot

namespace Recorded

variable (h : Recorded ls n) (hCode : Recorded (significantOf ls) m)
include h hCode

theorem matching_rankIn (hi : isSignificantAt ls i) :
    (Structure.ofNesting m).matching (rankIn ls i) =
      ((Structure.ofNesting n).matching i).map (rankIn ls) := by
  ext q
  rw [matching_iff hCode.settled, Option.map_eq_some_iff]
  simp only [matching_iff h.settled]
  constructor
  · rintro (hCloses | hCloses)
    · obtain ⟨o, c, hPair, hOpener, rfl⟩ := exists_of_closes hCloses
      obtain rfl := rankIn_inj hPair.isSignificantAt.1 hi hOpener
      exact ⟨c, .inl hPair, rfl⟩
    · obtain ⟨o, c, hPair, rfl, hCloser⟩ := exists_of_closes hCloses
      obtain rfl := rankIn_inj hPair.isSignificantAt.2 hi hCloser
      exact ⟨o, .inr hPair, rfl⟩
  · rintro ⟨j, hPair, rfl⟩
    exact hPair.imp Closes.without_trivia Closes.without_trivia

theorem braceKind_rankIn (hi : isSignificantAt ls i) :
    (Structure.ofNesting m).braceKind (rankIn ls i) = (Structure.ofNesting n).braceKind i := by
  ext k
  rw [braceKind_eq_some_iff hCode.settled, braceKind_eq_some_iff h.settled]
  constructor
  · rintro ⟨p, q, b, hCloses, hAt, hOpening, hBrace⟩
    obtain ⟨o, c, hPair, rfl, rfl⟩ := exists_of_closes hCloses
    obtain ⟨ho, hc⟩ := hPair.isSignificantAt
    rw [markAt_significantOf ho] at hOpening
    rw [braceOf_significantOf] at hBrace
    exact ⟨o, c, b, hPair, hAt.imp (rankIn_inj hi ho) (rankIn_inj hi hc), hOpening, hBrace⟩
  · rintro ⟨o, c, b, hPair, hAt, hOpening, hBrace⟩
    rw [← markAt_significantOf hPair.isSignificantAt.1] at hOpening
    rw [← braceOf_significantOf] at hBrace
    exact ⟨_, _, b, hPair.without_trivia, hAt.imp (congrArg _) (congrArg _), hOpening, hBrace⟩

theorem ancestors_rankIn (hi : isSignificantAt ls i) :
    (Structure.ofNesting m).ancestors (rankIn ls i) =
      ((Structure.ofNesting n).ancestors i).map (rankIn ls) := by
  have hDecreasing : (((Structure.ofNesting n).ancestors i).map (rankIn ls)).Pairwise (· > ·) := by
    refine List.pairwise_map.mpr ((h.ancestors_decreasing i).imp_of_mem ?_)
    intro o q _ hq hLt
    obtain ⟨c, hCloses, -, -⟩ := h.mem_ancestors_iff.mp hq
    exact (rankIn_lt_iff hCloses.isSignificantAt.1).mpr hLt
  refine (hCode.ancestors_decreasing _).eq_of_mem_iff hDecreasing fun p => ?_
  rw [hCode.mem_ancestors_iff, List.mem_map]
  simp only [h.mem_ancestors_iff]
  constructor
  · rintro ⟨q, hCloses, hpi, hiq⟩
    obtain ⟨o, c, hPair, rfl, rfl⟩ := exists_of_closes hCloses
    rw [rankIn_lt_iff hPair.isSignificantAt.1] at hpi
    rw [rankIn_lt_iff hi] at hiq
    exact ⟨o, ⟨c, hPair, hpi, hiq⟩, rfl⟩
  · rintro ⟨o, ⟨c, hPair, hoi, hic⟩, rfl⟩
    exact ⟨_, hPair.without_trivia, (rankIn_lt_iff hPair.isSignificantAt.1).mpr hoi,
      (rankIn_lt_iff hi).mpr hic⟩

end Recorded

/-! ## The code and its unit -/

namespace SourceUnit

variable {u : SourceUnit} {path text : String}

theorem rank_eq (u : SourceUnit) (i : Nat) : u.rank i = rankIn u.lexemes i := by
  rw [rank, rankIn, lexemes, ← List.map_take, List.countP_map]
  rfl

theorem isSignificant_eq (u : SourceUnit) (i : Nat) :
    u.isSignificant i = isSignificantAt u.lexemes i := by
  rw [isSignificant, isSignificantAt, getElem?_lexemes, Option.any_map]

theorem map_toLexeme_significantTokens (u : SourceUnit) :
    u.significantTokens.map Token.toLexeme = significantOf u.lexemes := by
  rw [significantTokens, significantOf, lexemes, List.filter_map]
  rfl

theorem rank_succ (u : SourceUnit) (i : Nat) :
    u.rank (i + 1) = u.rank i + if u.isSignificant i then 1 else 0 := by
  rw [rank_eq, rank_eq, rankIn_succ, isSignificant_eq]

theorem code_at? (u : SourceUnit) (p : Nat) :
    u.code.at? p = u.significantTokens[p]?.map Token.toLexeme := by
  rw [code, Code.ofLexemes, Code.at?, List.getElem?_toArray, List.getElem?_map]

theorem code_size (u : SourceUnit) : u.code.size = u.rank u.tokens.size := by
  rw [rank_eq, ← length_lexemes, rankIn_length, ← map_toLexeme_significantTokens]
  rfl

theorem map_rank_significant (u : SourceUnit) : u.significant.map u.rank = u.code.positions := by
  have hRank : u.rank = rankIn u.lexemes := funext u.rank_eq
  have hSignificant : u.isSignificant = isSignificantAt u.lexemes := funext u.isSignificant_eq
  rw [significant, hSignificant, hRank, map_rankIn_range, Code.positions, code_size, hRank]

theorem prev_rank (u : SourceUnit) (i : Nat) :
    Code.prev (u.rank i) = (u.lastBelow i).map u.rank := by
  induction i with
  | zero => rfl
  | succ i ih =>
    rw [rank_succ, lastBelow]
    cases u.isSignificant i with
    | true => rfl
    | false => exact ih

theorem map_rank_firstFrom (u : SourceUnit) (n i : Nat) :
    (u.firstFrom n i).map u.rank =
      if u.rank i < u.rank (i + n) then some (u.rank i) else none := by
  induction n generalizing i with
  | zero => rw [firstFrom, Nat.add_zero, if_neg (Nat.lt_irrefl _), Option.map_none]
  | succ n ih =>
    rw [firstFrom, ← Nat.add_assoc, Nat.add_right_comm]
    cases hSignificant : u.isSignificant i with
    | true =>
      have hNext : u.rank (i + 1) = u.rank i + 1 := by rw [rank_succ, if_pos hSignificant]
      have hLe : u.rank (i + 1) ≤ u.rank (i + 1 + n) := by
        rw [rank_eq, rank_eq]
        exact rankIn_mono (Nat.le_add_right _ _)
      rw [if_pos rfl, if_pos (by omega), Option.map_some]
    | false =>
      have hNext : u.rank (i + 1) = u.rank i := by
        rw [rank_succ, hSignificant]
        rfl
      rw [if_neg Bool.false_ne_true, ih, hNext]

theorem next_rank (hi : u.isSignificant i) :
    u.code.next (u.rank i) = (u.nextSignificant i).map u.rank := by
  have hNext : u.rank (i + 1) = u.rank i + 1 := by rw [rank_succ, if_pos hi]
  have hLt : i < u.tokens.size := by
    obtain ⟨t, hToken, -⟩ := (Option.any_eq_true _ _).mp hi
    exact (Array.getElem?_eq_some_iff.mp hToken).1
  rw [nextSignificant, map_rank_firstFrom, Nat.add_sub_cancel' hLt, ← code_size, hNext]
  rfl

/-- What is asked of the code at a position is what the unit answers at the token there. -/
structure Mirrored (u : SourceUnit) (i : Nat) : Prop where
  lexeme : u.code.at? (u.rank i) = (u.token? i).map Token.toLexeme
  prev : Code.prev (u.rank i) = (u.prevSignificant i).map u.rank
  next : u.code.next (u.rank i) = (u.nextSignificant i).map u.rank
  matching : u.code.matching (u.rank i) = (u.matching i).map u.rank
  braceKind : u.code.braceKind (u.rank i) = u.braceKind i
  parent : u.code.parent (u.rank i) = (u.parent i).map u.rank

theorem exists_structures (h : parse path text = .ok u) :
    ∃ n m, u.brackets = .ofNesting n ∧ u.code.brackets = .ofNesting m ∧ Recorded u.lexemes n ∧
      Recorded (significantOf u.lexemes) m := by
  obtain ⟨ts, n, -, hNest, rfl⟩ := parse_eq_ok_iff.mp h
  obtain ⟨m, hCode, hRecorded⟩ := exists_recorded_significantOf hNest
  refine ⟨n, m, rfl, ?_, recorded_of_nest hNest, hRecorded⟩
  rw [code, map_toLexeme_significantTokens, Code.ofLexemes, Code.structureOf]
  exact hCode ▸ rfl

theorem mirrored_of_parse (h : parse path text = .ok u) (hi : u.isSignificant i) :
    Mirrored u i := by
  obtain ⟨n, m, hBrackets, hCode, hRecorded, hOwn⟩ := exists_structures h
  have hRank : u.rank = rankIn u.lexemes := funext u.rank_eq
  have hAt : isSignificantAt u.lexemes i := u.isSignificant_eq i ▸ hi
  constructor
  case lexeme =>
    rw [code, map_toLexeme_significantTokens, hRank, ← getElem?_lexemes,
      ← getElem?_significantOf hAt]
    exact List.getElem?_toArray
  case prev =>
    rw [prevSignificant, ← prev_rank, hRank, ← length_lexemes, rankIn_min]
  case next => exact next_rank hi
  case matching =>
    rw [Code.matching, SourceUnit.matching, hBrackets, hCode, hRank]
    exact hRecorded.matching_rankIn hOwn hAt
  case braceKind =>
    rw [Code.braceKind, SourceUnit.braceKind, hBrackets, hCode, hRank]
    exact hRecorded.braceKind_rankIn hOwn hAt
  case parent =>
    rw [Code.parent, SourceUnit.parent, hBrackets, hCode, hRank, Structure.parent,
      hRecorded.ancestors_rankIn hOwn hAt, List.head?_map]
    rfl

end SourceUnit

/-! ## Findings -/

theorem check_onCode (metadata : RuleMetadata) (sites : Code → Options → List Site)
    (u : SourceUnit) (options : Options) :
    (Rule.onCode metadata sites).check u options =
      (sites u.code options).filterMap (Site.locate? u.significantTokens) := rfl

end RuleScout
