import RuleScout.Proofs.Enclosing
import RuleScout.Proofs.LinePlaces
import RuleScout.Proofs.TokenOrder

/-!
# What is known of each line

Tokens are dealt out to lines in one pass, which remembers how far down the tokens so far reach. For
every line the outcome is what the tokens say all together: whether one of them runs into the line,
which one is the first on it, and what is open there.
-/

set_option autoImplicit false

namespace RuleScout

namespace Line

variable {enclosing : Nat → List Nat} {k m covered : Nat} {past ts all : List (Token × Nat)}
  {texts : List (List Char)} {l : Line}

/-- Whether a token other than a line break runs from a line above into line `m`. -/
def runsInto (m : Nat) (t : Token) : Bool := t.kind ≠ .newline && t.line < m && m ≤ t.endLine

/-- Whether a token stands on line `m` and is no layout. -/
def standsOn (m : Nat) (t : Token) : Bool := t.line = m && t.kind ≠ .whitespace

theorem runsInto_iff {t : Token} :
    runsInto m t = true ↔ t.kind ≠ .newline ∧ t.line < m ∧ m ≤ t.endLine := by
  simp [runsInto, and_assoc]

/-- The tokens at the front that start on line `k` or above. -/
def upTo (k : Nat) (ts : List (Token × Nat)) : List (Token × Nat) :=
  ts.takeWhile fun p => p.1.line ≤ k

/-- The tokens behind them. -/
def beyond (k : Nat) (ts : List (Token × Nat)) : List (Token × Nat) :=
  ts.dropWhile fun p => p.1.line ≤ k

theorem upTo_append_beyond (k : Nat) (ts : List (Token × Nat)) : upTo k ts ++ beyond k ts = ts :=
  List.takeWhile_append_dropWhile

theorem drop_upTo (k : Nat) (ts : List (Token × Nat)) :
    ts.drop (upTo k ts).length = beyond k ts := by
  calc
    ts.drop (upTo k ts).length = (upTo k ts ++ beyond k ts).drop (upTo k ts).length := by
      rw [upTo_append_beyond]
    _ = beyond k ts := List.drop_left

theorem layOut_cons (enclosing : Nat → List Nat) (k covered : Nat) (ts : List (Token × Nat))
    (text : List Char) (texts : List (List Char)) :
    layOut enclosing k covered ts (text :: texts) =
      let first := if decide (k ≤ covered) then none
        else (upTo k ts).find? fun p => p.1.kind ≠ .whitespace
      ⟨k, String.ofList text, (first.filter fun p => p.1.kind ≠ .newline).map (·.2),
        decide (k ≤ covered), (first.map fun p => (enclosing p.2).reverse).getD []⟩ ::
        layOut enclosing (k + 1) ((upTo k ts).foldl (fun m p => reach m p.1) covered)
          (beyond k ts) texts := by
  rw [← drop_upTo]
  rfl

theorem standsOn_iff {t : Token} : standsOn m t = true ↔ t.line = m ∧ t.kind ≠ .whitespace := by
  simp [standsOn]

theorem standsOn_eq_false_iff {t : Token} :
    standsOn m t = false ↔ (t.line = m → t.kind = .whitespace) := by
  simp [standsOn]

theorem le_foldl_reach_iff (ts : List (Token × Nat)) (covered : Nat) :
    m ≤ ts.foldl (fun m p => reach m p.1) covered ↔
      m ≤ covered ∨ ∃ p ∈ ts, p.1.kind ≠ .newline ∧ m ≤ p.1.endLine := by
  induction ts generalizing covered with
  | nil => simp
  | cons p ts ih =>
    have hStep : m ≤ reach covered p.1 ↔
        m ≤ covered ∨ p.1.kind ≠ .newline ∧ m ≤ p.1.endLine := by
      rw [reach]
      split
      · rename_i hKind
        simp [hKind]
      · rename_i hKind
        rw [and_iff_right hKind]
        omega
    rw [List.foldl_cons, ih, hStep, or_assoc]
    simp only [List.mem_cons, or_and_right, exists_or, exists_eq_left]

theorem lt_of_mem_beyond (hSorted : ts.Pairwise fun p q => p.1.line ≤ q.1.line) :
    ∀ p ∈ beyond k ts, k < p.1.line := by
  induction ts with
  | nil => simp [beyond]
  | cons p ts ih =>
    obtain ⟨hFirst, hRest⟩ := List.pairwise_cons.mp hSorted
    by_cases hLine : p.1.line ≤ k
    · rw [beyond, List.dropWhile_cons_of_pos (by simpa using hLine)]
      exact ih hRest
    · rw [beyond, List.dropWhile_cons_of_neg (by simpa using hLine), List.forall_mem_cons]
      exact ⟨Nat.lt_of_not_le hLine, fun q hq => (Nat.lt_of_not_le hLine).trans_le (hFirst q hq)⟩

/-- The tokens that are dealt out already and those that are left, when line `k` is next. -/
structure Dealt (k covered : Nat) (past ts : List (Token × Nat)) : Prop where
  above : ∀ p ∈ past, p.1.line < k
  left : ∀ p ∈ ts, k ≤ p.1.line
  sorted : ts.Pairwise fun p q => p.1.line ≤ q.1.line
  reached : ∀ m, k ≤ m → (m ≤ covered ↔ ∃ p ∈ past, runsInto m p.1 = true)

namespace Dealt

variable (h : Dealt k covered past ts)
include h

theorem line_of_mem_upTo {p : Token × Nat} (hp : p ∈ upTo k ts) : p.1.line = k :=
  Nat.le_antisymm (of_decide_eq_true (List.all_eq_true.mp List.all_takeWhile p hp))
    (h.left p ((List.takeWhile_prefix _).subset hp))

theorem next :
    Dealt (k + 1) ((upTo k ts).foldl (fun m p => reach m p.1) covered) (past ++ upTo k ts)
      (beyond k ts) where
  above p hp := by
    rcases List.mem_append.mp hp with hPast | hHere
    · exact Nat.lt_succ_of_lt (h.above p hPast)
    · exact Nat.lt_succ_of_le (h.line_of_mem_upTo hHere).le
  left := lt_of_mem_beyond h.sorted
  sorted := h.sorted.sublist (List.dropWhile_sublist _)
  reached m hm := by
    rw [le_foldl_reach_iff, h.reached m (Nat.le_of_succ_le hm)]
    simp only [List.mem_append, or_and_right, exists_or]
    refine or_congr_right (exists_congr fun p => and_congr_right fun hp => ?_)
    rw [runsInto_iff, h.line_of_mem_upTo hp, and_iff_right (Nat.lt_of_succ_le hm)]

theorem continued_iff : k ≤ covered ↔ ∃ p ∈ past ++ ts, runsInto k p.1 = true := by
  rw [h.reached k (Nat.le_refl k)]
  simp only [List.mem_append, or_and_right, exists_or]
  refine (or_iff_left ?_).symm
  rintro ⟨p, hp, hRuns⟩
  exact absurd (runsInto_iff.mp hRuns).2.1 (Nat.not_lt.mpr (h.left p hp))

theorem find?_eq :
    (past ++ ts).find? (fun p => standsOn k p.1) =
      (upTo k ts).find? fun p => p.1.kind ≠ .whitespace := by
  have hPast : past.find? (fun p => standsOn k p.1) = none := by
    rw [List.find?_eq_none]
    intro p hp
    simp [standsOn, (h.above p hp).ne]
  have hBeyond : (beyond k ts).find? (fun p => standsOn k p.1) = none := by
    rw [List.find?_eq_none]
    intro p hp
    simp [standsOn, (lt_of_mem_beyond h.sorted p hp).ne']
  have hHere : (upTo k ts).find? (fun p => standsOn k p.1) =
      (upTo k ts).find? fun p => p.1.kind ≠ .whitespace := by
    apply List.find?_congr
    intro p hp
    simp [standsOn, h.line_of_mem_upTo hp]
  rw [List.find?_append, hPast, Option.none_or]
  conv_lhs => rw [← upTo_append_beyond k ts]
  rw [List.find?_append, hBeyond, Option.or_none, hHere]

end Dealt

/-- What a line says, told from all tokens with their indices. -/
structure Tells (enclosing : Nat → List Nat) (all : List (Token × Nat)) (l : Line) : Prop where
  continued : l.continued = true ↔ ∃ p ∈ all, runsInto l.number p.1 = true
  firstToken : l.firstToken =
    ((if l.continued then none else all.find? fun p => standsOn l.number p.1).filter
      fun p => p.1.kind ≠ .newline).map (·.2)
  openBrackets : l.openBrackets =
    ((if l.continued then none else all.find? fun p => standsOn l.number p.1).map
      fun p => (enclosing p.2).reverse).getD []

theorem tells_of_mem_layOut (h : Dealt k covered past ts)
    (hl : l ∈ layOut enclosing k covered ts texts) : Tells enclosing (past ++ ts) l := by
  induction texts generalizing k covered past ts with
  | nil => cases hl
  | cons text texts ih =>
    rw [layOut_cons, List.mem_cons] at hl
    rcases hl with rfl | hl
    · constructor
      case continued => exact decide_eq_true_iff.trans h.continued_iff
      case firstToken => rw [h.find?_eq]
      case openBrackets => rw [h.find?_eq]
    · have hTells := ih h.next hl
      rwa [List.append_assoc, upTo_append_beyond] at hTells

end Line

namespace SourceUnit

variable {u : SourceUnit} {path text : String} {l : Line} {i k : Nat}

/-- The first token on line `k` that is more than space between words; it may be a line break. -/
def StartsLine (u : SourceUnit) (k i : Nat) : Prop :=
  ∃ t, u.token? i = some t ∧ t.line = k ∧ t.kind ≠ .whitespace ∧
    ∀ j n, j < i → u.token? j = some n → n.line = k → n.kind = .whitespace

theorem find?_zipIdx_iff {ts : List Token} {p : Token → Bool} {t : Token} :
    ts.zipIdx.find? (fun q => p q.1) = some (t, i) ↔
      ts[i]? = some t ∧ p t = true ∧ ∀ j n, j < i → ts[j]? = some n → p n = false := by
  rw [List.find?_eq_some_iff_getElem]
  constructor
  · rintro ⟨hHere, j, hj, hAt, hBefore⟩
    rw [List.getElem_zipIdx, Prod.mk.injEq, Nat.zero_add] at hAt
    obtain ⟨rfl, rfl⟩ := hAt
    refine ⟨List.getElem?_eq_getElem _, hHere, fun m n hm hn => ?_⟩
    obtain ⟨_, rfl⟩ := List.getElem?_eq_some_iff.mp hn
    simpa using hBefore m hm
  · rintro ⟨hAt, hHere, hBefore⟩
    obtain ⟨hi, rfl⟩ := List.getElem?_eq_some_iff.mp hAt
    refine ⟨hHere, i, by rwa [List.length_zipIdx], by simp, fun j hj => ?_⟩
    have hNone := hBefore j _ hj (List.getElem?_eq_getElem (hj.trans hi))
    simpa using hNone

theorem startsLine_iff :
    u.StartsLine k i ↔
      ∃ t, u.tokens.toList.zipIdx.find? (fun p => Line.standsOn k p.1) = some (t, i) := by
  refine exists_congr fun t => ?_
  rw [find?_zipIdx_iff]
  simp only [Line.standsOn_iff, Line.standsOn_eq_false_iff, Array.getElem?_toList, token?,
    and_assoc]

theorem tells_of_mem (h : parse path text = .ok u) (hl : l ∈ u.lines) :
    Line.Tells u.ancestors u.tokens.toList.zipIdx l := by
  obtain ⟨hBehind, hSorted⟩ := (cuts_of_lex (lex_tokens h)).ordered
  have hTokens : u.tokens.toList.zipIdx.map (·.1) = u.tokens.toList := List.zipIdx_map_fst 0 _
  have hDealt : Line.Dealt 1 0 [] u.tokens.toList.zipIdx := by
    constructor
    case above => exact fun p hp => absurd hp List.not_mem_nil
    case left =>
      intro p hp
      have hPlace := hBehind p.1 (hTokens ▸ List.mem_map_of_mem hp)
      simp only at hPlace
      omega
    case sorted =>
      rw [← hTokens, List.pairwise_map] at hSorted
      refine hSorted.imp fun hOrder => ?_
      rw [Token.Precedes] at hOrder
      omega
    case reached =>
      intro m hm
      refine iff_of_false (Nat.not_le.mpr hm) ?_
      simp
  obtain ⟨ts, n, -, -, rfl⟩ := parse_eq_ok_iff.mp h
  exact Line.tells_of_mem_layOut hDealt hl

end SourceUnit

/-- What a line says is so, told from the tokens of its unit. -/
structure Line.Exact (u : SourceUnit) (l : Line) : Prop where
  continued_iff : l.continued = true ↔
    ∃ t ∈ u.tokens, t.kind ≠ .newline ∧ t.line < l.number ∧ l.number ≤ t.endLine
  firstToken_iff : ∀ i, l.firstToken = some i ↔
    l.continued = false ∧ u.StartsLine l.number i ∧ ∀ t, u.token? i = some t → t.kind ≠ .newline
  noBrackets : l.continued = true ∨ (∀ i, ¬u.StartsLine l.number i) → l.openBrackets = []
  brackets : ∀ i, l.continued = false → u.StartsLine l.number i →
    l.openBrackets.Pairwise (· < ·) ∧
      ∀ o, o ∈ l.openBrackets ↔ ∃ c, u.matching o = some c ∧ o < i ∧ i < c

namespace SourceUnit

variable {u : SourceUnit} {path text : String} {l : Line}

theorem exists_mem_zipIdx_iff {ts : List Token} {P : Token → Prop} :
    (∃ p ∈ ts.zipIdx, P p.1) ↔ ∃ t ∈ ts, P t := by
  conv_rhs => rw [← List.zipIdx_map_fst 0 ts]
  simp only [List.mem_map, exists_exists_and_eq_and]

theorem exact_of_mem (h : parse path text = .ok u) (hl : l ∈ u.lines) : l.Exact u := by
  have hTells := tells_of_mem h hl
  constructor
  case continued_iff =>
    rw [hTells.continued, exists_mem_zipIdx_iff (P := (Line.runsInto l.number · = true))]
    simp only [Line.runsInto_iff, Array.mem_toList_iff]
  case firstToken_iff =>
    intro i
    rw [hTells.firstToken]
    cases hContinued : l.continued with
    | true => simp
    | false =>
      rw [if_neg Bool.false_ne_true, startsLine_iff, and_iff_right rfl, Option.map_eq_some_iff]
      constructor
      · rintro ⟨⟨t, _⟩, hFirst, rfl⟩
        obtain ⟨hFirst, hKind⟩ := Option.filter_eq_some_iff.mp hFirst
        refine ⟨⟨t, hFirst⟩, fun n hn => ?_⟩
        rw [token?, ← Array.getElem?_toList, (find?_zipIdx_iff.mp hFirst).1] at hn
        cases hn
        exact of_decide_eq_true hKind
      · rintro ⟨⟨t, hFirst⟩, hKind⟩
        have hAt := (find?_zipIdx_iff.mp hFirst).1
        rw [Array.getElem?_toList] at hAt
        exact ⟨(t, i), Option.filter_eq_some_iff.mpr ⟨hFirst, decide_eq_true (hKind t hAt)⟩, rfl⟩
  case noBrackets =>
    intro hNone
    rw [hTells.openBrackets]
    cases hContinued : l.continued with
    | true => rfl
    | false =>
      have hEmpty : u.tokens.toList.zipIdx.find? (fun p => Line.standsOn l.number p.1) = none := by
        rw [Option.eq_none_iff_forall_ne_some]
        rintro ⟨t, i⟩ hFirst
        rw [hContinued] at hNone
        exact hNone.resolve_left Bool.false_ne_true i (startsLine_iff.mpr ⟨t, hFirst⟩)
      rw [if_neg Bool.false_ne_true, hEmpty]
      rfl
  case brackets =>
    intro i hContinued hStarts
    obtain ⟨t, hFirst⟩ := startsLine_iff.mp hStarts
    have hAround : l.openBrackets = (u.ancestors i).reverse := by
      rw [hTells.openBrackets, hContinued, if_neg Bool.false_ne_true, hFirst]
      rfl
    rw [hAround, List.pairwise_reverse]
    refine ⟨ancestors_decreasing h i, fun o => ?_⟩
    rw [List.mem_reverse, mem_ancestors_iff h]
    refine exists_congr fun c => ?_
    rw [matching_eq_some_iff h]
    constructor
    · rintro ⟨hCloses, hBetween⟩
      exact ⟨.inl hCloses, hBetween⟩
    · rintro ⟨hCloses | hCloses, ho, hc⟩
      · exact ⟨hCloses, ho, hc⟩
      · exact absurd hCloses.lt (by omega)

end SourceUnit

/-- Lines are numbered from one on, and each says exactly what the lines, the kinds and the brackets
of all tokens say about it. -/
theorem lines_exact (path text : String) (u : SourceUnit) (h : SourceUnit.parse path text = .ok u) :
    u.lines.map (·.number) = List.range' 1 u.lines.length ∧ ∀ l ∈ u.lines, l.Exact u := by
  refine ⟨?_, fun l => SourceUnit.exact_of_mem h⟩
  apply List.ext_getElem (by rw [List.length_map, List.length_range'])
  intro j hj _
  rw [List.length_map] at hj
  rw [List.getElem_map, List.getElem_range', Nat.one_mul]
  exact SourceUnit.number_eq h j _ (List.getElem?_eq_getElem hj)

theorem lines_exact_template :
    ∃ u, SourceUnit.parse "a.js" "f(\x60a\n\x60,\n\n  b)" = .ok u ∧
      u.lines = [⟨1, "f(\x60a", some 0, false, []⟩, ⟨2, "\x60,", none, true, []⟩,
        ⟨3, "", none, false, [1]⟩, ⟨4, "  b)", some 7, false, [1]⟩] ∧
      ∀ l ∈ u.lines, l.Exact u := by
  obtain ⟨u, hu, hLines⟩ : ∃ u, SourceUnit.parse "a.js" "f(\x60a\n\x60,\n\n  b)" = .ok u ∧
      u.lines = [⟨1, "f(\x60a", some 0, false, []⟩, ⟨2, "\x60,", none, true, []⟩,
        ⟨3, "", none, false, [1]⟩, ⟨4, "  b)", some 7, false, [1]⟩] :=
    exists_ok (by decide +kernel)
  exact ⟨u, hu, hLines, (lines_exact "a.js" _ u hu).2⟩

end RuleScout
