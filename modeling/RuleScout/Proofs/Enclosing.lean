import Mathlib.Data.List.Sort
import RuleScout.Proofs.Terminators

/-!
# The brackets around a token

A token is enclosed by the brackets that are opened in front of it and closed behind it. They are
recorded while brackets are read, from the stack of those that are open, and they are what comes
of going from a token to the innermost bracket around it, from there to the innermost around that
bracket, and so on.
-/

set_option autoImplicit false

namespace RuleScout

variable {ls ls' ts : List Lexeme} {i o c : Nat} {stack : List OpenBracket} {t : Lexeme}
  {n : Nesting}

/-! ## What is recorded while brackets are read -/

/-- The brackets around index `i`, the innermost first: those that are open there, without the one
that is closed there. -/
structure Around (ls : List Lexeme) (i : Nat) (stack : List OpenBracket) : Prop where
  sorted : stack.Pairwise fun inner outer => outer.index < inner.index
  mem_iff : ∀ o, (∃ p ∈ stack, p.index = o) ↔ OpenAt ls i o ∧ ¬Closes ls o i

namespace Open

theorem around (h : Open ls i stack) (hMark : ∀ b, markAt ls i ≠ some (.closing b)) :
    Around ls i stack where
  sorted := h.sorted
  mem_iff o := by
    have hNone : ¬Closes ls o i := by
      intro hCloses
      obtain ⟨b, -, hClosing⟩ := hCloses.sort
      exact hMark b hClosing
    rw [h.openAt_iff, and_iff_left hNone]

theorem around_closing {p : OpenBracket} (h : Open ls i (p :: stack))
    (hMark : markAt ls i = some (.closing p.bracket)) : Around ls i stack where
  sorted := (List.pairwise_cons.mp h.sorted).2
  mem_iff o := by
    have hOwn := h.closes hMark
    rw [h.openAt_iff]
    constructor
    · rintro ⟨q, hq, rfl⟩
      have hBelow := (List.pairwise_cons.mp h.sorted).1 q hq
      refine ⟨⟨q, List.mem_cons_of_mem p hq, rfl⟩, fun hCloses => ?_⟩
      exact absurd (hCloses.opener_unique hOwn) (Nat.ne_of_lt hBelow)
    · rintro ⟨⟨q, hq, rfl⟩, hNone⟩
      rcases List.mem_cons.mp hq with rfl | hq
      · exact absurd hOwn hNone
      · exact ⟨q, hq, rfl⟩

end Open

/-- What is recorded for one lexeme, and what is open behind it. -/
theorem nest_cons_ok (hOpen : Open ls i stack) (hAt : ls[i]? = some t)
    (h : nest i stack (significantBefore ls i) (t :: ts) = .ok n) :
    ∃ entry next rest, Around ls i entry ∧ Open ls (i + 1) next ∧
      nest (i + 1) next (significantBefore ls (i + 1)) ts = .ok rest ∧
      n.enclosing = entry :: rest.enclosing := by
  have hMarkAt : markAt ls i = t.mark? := by rw [markAt, hAt, Option.bind_some]
  rw [nest_cons, ← significantBefore_succ hAt] at h
  cases hMark : t.mark? with
  | none =>
    rw [hMark] at h hMarkAt
    obtain ⟨rest, hRest, rfl⟩ := map_eq_ok_iff.mp h
    exact ⟨stack, stack, rest, hOpen.around (by simp [hMarkAt]), hOpen.plain hMarkAt, hRest, rfl⟩
  | some m =>
    rw [hMark] at h hMarkAt
    cases m with
    | opening b =>
      obtain ⟨rest, hRest, rfl⟩ := map_eq_ok_iff.mp h
      exact ⟨stack, _, rest, hOpen.around (by simp [hMarkAt]), hOpen.push hMarkAt, hRest, rfl⟩
    | closing b =>
      cases stack with
      | nil => cases h
      | cons p below =>
        by_cases hSort : p.bracket = b
        · subst hSort
          simp only [if_true] at h
          obtain ⟨rest, hRest, rfl⟩ := map_eq_ok_iff.mp h
          exact ⟨below, below, rest, hOpen.around_closing hMarkAt, hOpen.pop hMarkAt, hRest, rfl⟩
        · simp only [if_neg hSort] at h
          cases h

theorem around_nest (hOpen : Open ls i stack) (hRest : ls.drop i = ts)
    (h : nest i stack (significantBefore ls i) ts = .ok n) :
    n.enclosing.length = ts.length ∧
      ∀ k entry, n.enclosing[k]? = some entry → Around ls (i + k) entry := by
  induction ts generalizing i stack n with
  | nil =>
    cases stack with
    | nil =>
      cases h
      exact ⟨rfl, fun k entry hEntry => by cases hEntry⟩
    | cons p below => cases h
  | cons t ts ih =>
    obtain ⟨hAt, hNext⟩ := at_of_drop hRest
    obtain ⟨first, next, rest, hAround, hOpen', hNest, hEnclosing⟩ := nest_cons_ok hOpen hAt h
    obtain ⟨hLength, hLater⟩ := ih hOpen' hNext hNest
    rw [hEnclosing]
    refine ⟨congrArg (· + 1) hLength, fun k entry hEntry => ?_⟩
    cases k with
    | zero =>
      cases hEntry
      exact hAround
    | succ k =>
      have hThere := hLater k entry hEntry
      rwa [Nat.add_assoc, Nat.add_comm 1] at hThere

/-! ## The brackets in front of an index decide what is open there -/

theorem markAt_take (ho : o < i) : markAt (ls.take i) o = markAt ls o := by
  rw [markAt, markAt, List.getElem?_take_of_lt ho]

theorem between_take (hc : c ≤ i) : between (ls.take i) o c = between ls o c := by
  rw [between, between, List.take_take, Nat.min_eq_left hc]

theorem closes_take_iff (hc : c < i) : Closes (ls.take i) o c ↔ Closes ls o c := by
  have hSame (h : o < c) : markAt (ls.take i) o = markAt ls o := markAt_take (h.trans hc)
  constructor
  · rintro ⟨hLt, hSort, hInner⟩
    rw [hSame hLt, markAt_take hc] at hSort
    rw [between_take hc.le] at hInner
    exact ⟨hLt, hSort, hInner⟩
  · rintro ⟨hLt, hSort, hInner⟩
    rw [← hSame hLt, ← markAt_take hc] at hSort
    rw [← between_take hc.le] at hInner
    exact ⟨hLt, hSort, hInner⟩

theorem openAt_take_iff : OpenAt (ls.take i) i o ↔ OpenAt ls i o := by
  constructor
  · rintro ⟨hLt, hOpener, hUnclosed⟩
    rw [markAt_take hLt] at hOpener
    exact ⟨hLt, hOpener, fun c hc hCloses => hUnclosed c hc ((closes_take_iff hc).mpr hCloses)⟩
  · rintro ⟨hLt, hOpener, hUnclosed⟩
    rw [← markAt_take hLt] at hOpener
    exact ⟨hLt, hOpener, fun c hc hCloses => hUnclosed c hc ((closes_take_iff hc).mp hCloses)⟩

/-- When nothing is left open, a bracket encloses what stands between its two sides. -/
theorem openAt_iff_closes (hOpeners : ∀ o b, markAt ls o = some (.opening b) → ∃ c, Closes ls o c) :
    OpenAt ls i o ∧ ¬Closes ls o i ↔ ∃ c, Closes ls o c ∧ o < i ∧ i < c := by
  constructor
  · rintro ⟨hOpen, hNone⟩
    obtain ⟨b, hOpening⟩ := hOpen.opener
    obtain ⟨c, hCloses⟩ := hOpeners o b hOpening
    have hBehind : ¬c < i := fun hc => hOpen.unclosed c hc hCloses
    have hNe : c ≠ i := by
      rintro rfl
      exact hNone hCloses
    exact ⟨c, hCloses, hOpen.lt, by omega⟩
  · rintro ⟨c, hCloses, ho, hc⟩
    obtain ⟨b, hOpening, -⟩ := hCloses.sort
    refine ⟨⟨ho, ⟨b, hOpening⟩, fun d hd hOther => ?_⟩, fun hOther => ?_⟩
    · have hSame := hCloses.closer_unique hOther
      omega
    · have hSame := hCloses.closer_unique hOther
      omega

/-! ## The brackets around an index -/

/-- What is recorded of lexemes whose brackets are well nested. -/
structure Recorded (ls : List Lexeme) (n : Nesting) : Prop where
  settled : Settled ls 0 n.pairs
  length : n.enclosing.length = ls.length
  around : ∀ i entry, n.enclosing[i]? = some entry → Around ls i entry

theorem recorded_of_nest (h : nest 0 [] none ls = .ok n) : Recorded ls n := by
  have hJudged : Judged ls 0 (nest 0 [] none ls) :=
    judged_nest (.start _) (Nat.zero_le _) List.drop_zero rfl fun d hd => by cases hd
  rw [h] at hJudged
  obtain ⟨hLength, hAround⟩ := around_nest (.start _) List.drop_zero h
  refine ⟨hJudged.2, hLength, fun i entry hEntry => ?_⟩
  have hHere := hAround i entry hEntry
  rwa [Nat.zero_add] at hHere

namespace Recorded

variable (h : Recorded ls n)
include h

theorem ancestors_past (hi : ls.length ≤ i) : (Structure.ofNesting n).ancestors i = [] := by
  rw [Structure.ancestors, Structure.ofNesting, List.getElem?_toArray,
    List.getElem?_eq_none (h.length ▸ hi)]
  rfl

theorem ancestors_eq_map (hi : i < ls.length) :
    ∃ entry, Around ls i entry ∧ (Structure.ofNesting n).ancestors i = entry.map (·.index) := by
  have hLt : i < n.enclosing.length := h.length ▸ hi
  have hEntry : n.enclosing[i]? = some n.enclosing[i] := List.getElem?_eq_getElem hLt
  refine ⟨_, h.around i _ hEntry, ?_⟩
  rw [Structure.ancestors, Structure.ofNesting, List.getElem?_toArray, hEntry]
  rfl

theorem ancestors_decreasing (i : Nat) :
    ((Structure.ofNesting n).ancestors i).Pairwise (· > ·) := by
  rcases Nat.lt_or_ge i ls.length with hi | hi
  · obtain ⟨entry, hAround, hEntry⟩ := h.ancestors_eq_map hi
    rw [hEntry, List.pairwise_map]
    exact hAround.sorted
  · rw [h.ancestors_past hi]
    exact .nil

theorem mem_ancestors_iff_openAt (hi : i < ls.length) :
    o ∈ (Structure.ofNesting n).ancestors i ↔ OpenAt ls i o ∧ ¬Closes ls o i := by
  obtain ⟨entry, hAround, hEntry⟩ := h.ancestors_eq_map hi
  rw [hEntry, List.mem_map]
  exact hAround.mem_iff o

theorem mem_ancestors_iff :
    o ∈ (Structure.ofNesting n).ancestors i ↔ ∃ c, Closes ls o c ∧ o < i ∧ i < c := by
  rcases Nat.lt_or_ge i ls.length with hi | hi
  · rw [h.mem_ancestors_iff_openAt hi]
    exact openAt_iff_closes h.settled.openers
  · rw [h.ancestors_past hi]
    refine iff_of_false List.not_mem_nil ?_
    rintro ⟨c, hCloses, -, hc⟩
    obtain ⟨b, -, hClosing⟩ := hCloses.sort
    have hLt := lt_length_of_markAt hClosing
    omega

end Recorded

/-! ## The brackets around a token of a source unit -/

namespace SourceUnit

variable {u u' : SourceUnit} {path path' text text' : String} {os : List Nat}

/-- The tokens without their places in the text. -/
def lexemes (u : SourceUnit) : List Lexeme := u.tokens.toList.map Token.toLexeme

theorem getElem?_lexemes : u.lexemes[i]? = (u.token? i).map Token.toLexeme := by
  rw [lexemes, List.getElem?_map, Array.getElem?_toList, token?]

theorem markAt_lexemes_iff {m : Mark} :
    markAt u.lexemes i = some m ↔
      ∃ t, u.token? i = some t ∧ t.kind = .punctuator ∧ t.text = m.text := by
  rw [markAt, getElem?_lexemes, Option.bind_eq_some_iff]
  simp only [Option.map_eq_some_iff, Lexeme.mark?_eq_some_iff]
  constructor
  · rintro ⟨_, ⟨t, hToken, rfl⟩, hMark⟩
    exact ⟨t, hToken, hMark⟩
  · rintro ⟨t, hToken, hMark⟩
    exact ⟨_, ⟨t, hToken, rfl⟩, hMark⟩

theorem length_lexemes : u.lexemes.length = u.tokens.size := by
  rw [lexemes, List.length_map, Array.length_toList]

theorem exists_nesting (h : parse path text = .ok u) :
    ∃ n, u.brackets = .ofNesting n ∧ Recorded u.lexemes n := by
  obtain ⟨ts, n, -, hNest, rfl⟩ := parse_eq_ok_iff.mp h
  exact ⟨n, rfl, recorded_of_nest hNest⟩

section Accepted

variable (h : parse path text = .ok u)
include h

theorem matching_eq_some_iff :
    u.matching i = some o ↔ Closes u.lexemes i o ∨ Closes u.lexemes o i := by
  obtain ⟨n, hBrackets, hRecorded⟩ := exists_nesting h
  rw [matching, hBrackets]
  exact matching_iff hRecorded.settled

theorem ancestors_past (hi : u.tokens.size ≤ i) : u.ancestors i = [] := by
  obtain ⟨n, hBrackets, hRecorded⟩ := exists_nesting h
  rw [ancestors, hBrackets]
  exact hRecorded.ancestors_past (length_lexemes ▸ hi)

theorem ancestors_decreasing (i : Nat) : (u.ancestors i).Pairwise (· > ·) := by
  obtain ⟨n, hBrackets, hRecorded⟩ := exists_nesting h
  rw [ancestors, hBrackets]
  exact hRecorded.ancestors_decreasing i

theorem mem_ancestors_iff_openAt (hi : i < u.tokens.size) :
    o ∈ u.ancestors i ↔ OpenAt u.lexemes i o ∧ ¬Closes u.lexemes o i := by
  obtain ⟨n, hBrackets, hRecorded⟩ := exists_nesting h
  rw [ancestors, hBrackets]
  exact hRecorded.mem_ancestors_iff_openAt (length_lexemes ▸ hi)

theorem mem_ancestors_iff :
    o ∈ u.ancestors i ↔ ∃ c, Closes u.lexemes o c ∧ o < i ∧ i < c := by
  obtain ⟨n, hBrackets, hRecorded⟩ := exists_nesting h
  rw [ancestors, hBrackets]
  exact hRecorded.mem_ancestors_iff

/-- The brackets around the innermost one are the others around the token. -/
theorem ancestors_head (hHead : u.ancestors i = o :: os) : u.ancestors o = os := by
  have hDecreasing := ancestors_decreasing h i
  rw [hHead, List.pairwise_cons] at hDecreasing
  obtain ⟨hBelow, hRest⟩ := hDecreasing
  have hAround : o ∈ u.ancestors i := hHead ▸ List.mem_cons_self
  obtain ⟨c, hOwn, hoi, hic⟩ := (mem_ancestors_iff h).mp hAround
  refine (ancestors_decreasing h o).eq_of_mem_iff hRest fun q => ?_
  rw [mem_ancestors_iff h]
  constructor
  · rintro ⟨d, hCloses, hqo, hod⟩
    -- the outer pair cannot end between the two sides of the inner one
    have hcd := hCloses.not_cross hOwn hqo hod
    have hq : q ∈ u.ancestors i := (mem_ancestors_iff h).mpr ⟨d, hCloses, by omega, by omega⟩
    rw [hHead, List.mem_cons] at hq
    exact hq.resolve_left (Nat.ne_of_lt hqo)
  · intro hq
    have hAll : q ∈ u.ancestors i := hHead ▸ List.mem_cons_of_mem o hq
    obtain ⟨d, hCloses, -, hid⟩ := (mem_ancestors_iff h).mp hAll
    exact ⟨d, hCloses, hBelow q hq, by omega⟩

end Accepted

theorem closed?_of_closes {t : Token} (hCloses : Closes u.lexemes o i)
    (hToken : u.token? i = some t) : ∃ b, Bracket.closed? t.toLexeme = some b := by
  obtain ⟨b, -, hClosing⟩ := hCloses.sort
  obtain ⟨s, hHere, hMark⟩ := markAt_lexemes_iff.mp hClosing
  cases hToken.symm.trans hHere
  exact ⟨b, Lexeme.closed?_eq_some_iff.mpr hMark⟩

/-- Going from a token to the innermost bracket around it, and on from there until nothing is
around. -/
inductive Climbs (u : SourceUnit) : Nat → List Nat → Prop where
  | top {i : Nat} (hParent : u.parent i = none) : Climbs u i []
  | step {i o : Nat} {os : List Nat} (hParent : u.parent i = some o) (hRest : Climbs u o os) :
      Climbs u i (o :: os)

theorem climbs_ancestors (h : parse path text = .ok u) (i : Nat) : u.Climbs i (u.ancestors i) := by
  -- a bracket stands in front of what it is around
  induction i using Nat.strong_induction_on with
  | _ i ih =>
    cases hAround : u.ancestors i with
    | nil => exact .top (congrArg List.head? hAround)
    | cons o os =>
      have ho : o ∈ u.ancestors i := hAround ▸ List.mem_cons_self
      obtain ⟨c, -, hLt, -⟩ := (mem_ancestors_iff h).mp ho
      have hRest := ih o hLt
      rw [ancestors_head h hAround] at hRest
      exact .step (congrArg List.head? hAround) hRest

theorem ancestors_filter (h : parse path text = .ok u) (h' : parse path' text' = .ok u')
    (hBefore : u'.tokens.toList.take i = u.tokens.toList.take i) {t t' : Token}
    (hToken : u.token? i = some t) (hTrivia : t.isSignificant = false)
    (hToken' : u'.token? i = some t') :
    u'.ancestors i = (u.ancestors i).filter fun o => u'.matching o ≠ some i := by
  have hi : i < u.tokens.size := (Array.getElem?_eq_some_iff.mp hToken).1
  have hi' : i < u'.tokens.size := (Array.getElem?_eq_some_iff.mp hToken').1
  have hLexemes : u'.lexemes.take i = u.lexemes.take i := by
    rw [lexemes, lexemes, ← List.map_take, ← List.map_take, hBefore]
  have hNone (o : Nat) : ¬Closes u.lexemes o i := by
    intro hCloses
    obtain ⟨b, hClosed⟩ := closed?_of_closes hCloses hToken
    rw [Lexeme.isSignificant, (Lexeme.closed?_eq_some_iff.mp hClosed).1] at hTrivia
    cases hTrivia
  refine (ancestors_decreasing h' i).eq_of_mem_iff ((ancestors_decreasing h i).filter _) fun o => ?_
  have hOwn (ho : o < i) : u'.matching o = some i ↔ Closes u'.lexemes o i := by
    rw [matching_eq_some_iff h']
    exact or_iff_left fun hCloses => absurd hCloses.lt (by omega)
  rw [List.mem_filter, decide_eq_true_iff, mem_ancestors_iff_openAt h' hi',
    mem_ancestors_iff_openAt h hi, ← openAt_take_iff, hLexemes, openAt_take_iff,
    and_iff_left (hNone o)]
  exact and_congr_right fun hOpen => not_congr (hOwn hOpen.lt).symm

end SourceUnit

/-- What is known of the brackets around the token at an index. -/
structure WellEnclosed (u : SourceUnit) (i : Nat) : Prop where
  climbs : u.Climbs i (u.ancestors i)
  decreasing : (u.ancestors i).Pairwise (· > ·)
  mem_iff : ∀ o, o ∈ u.ancestors i ↔
    (∃ t, u.token? o = some t ∧ t.kind = .punctuator ∧ t.text ∈ ["(", "[", "\x7b"]) ∧
      ∃ c, u.matching o = some c ∧ o < i ∧ i < c
  own : ∀ o, u.matching o = some i → o ∉ u.ancestors i
  parent : u.parent i = (u.ancestors i).head?
  past : u.tokens.size ≤ i → u.parent i = none ∧ u.ancestors i = []

theorem wellEnclosed_of_parse {u : SourceUnit} {path text : String}
    (h : SourceUnit.parse path text = .ok u) (i : Nat) : WellEnclosed u i := by
  have hMem (o : Nat) := SourceUnit.mem_ancestors_iff (i := i) (o := o) h
  constructor
  case climbs => exact SourceUnit.climbs_ancestors h i
  case decreasing => exact SourceUnit.ancestors_decreasing h i
  case mem_iff =>
    intro o
    rw [hMem]
    constructor
    · rintro ⟨c, hCloses, ho, hc⟩
      obtain ⟨b, hOpening, -⟩ := hCloses.sort
      obtain ⟨t, hToken, hKind, hText⟩ := SourceUnit.markAt_lexemes_iff.mp hOpening
      have hSpelled : t.text ∈ ["(", "[", "\x7b"] := by
        rw [hText]
        cases b <;> decide
      exact ⟨⟨t, hToken, hKind, hSpelled⟩, c,
        (SourceUnit.matching_eq_some_iff h).mpr (.inl hCloses), ho, hc⟩
    · rintro ⟨-, c, hMatching, ho, hc⟩
      rcases (SourceUnit.matching_eq_some_iff h).mp hMatching with hCloses | hCloses
      · exact ⟨c, hCloses, ho, hc⟩
      · exact absurd hCloses.lt (by omega)
  case own =>
    intro o hMatching ho
    obtain ⟨c, hCloses, hoi, hic⟩ := (hMem o).mp ho
    rcases (SourceUnit.matching_eq_some_iff h).mp hMatching with hOwn | hOwn
    · exact absurd (hOwn.closer_unique hCloses) (Nat.ne_of_lt hic)
    · exact absurd hOwn.lt (by omega)
  case parent => rfl
  case past =>
    intro hi
    have hNone := SourceUnit.ancestors_past h hi
    exact ⟨congrArg List.head? hNone, hNone⟩

/-- The brackets around a token are those whose pairs it stands in, and for trivia they are what
they would be for any other token at that place. -/
theorem enclosing_exact (path text : String) (u : SourceUnit)
    (h : SourceUnit.parse path text = .ok u) (i : Nat) :
    WellEnclosed u i ∧
    ∀ path' text' u' t t', SourceUnit.parse path' text' = .ok u' →
      u'.tokens.toList.take i = u.tokens.toList.take i →
      u.token? i = some t → t.isSignificant = false → u'.token? i = some t' →
      (u'.ancestors i = (u.ancestors i).filter fun o => u'.matching o ≠ some i) ∧
        (Bracket.closed? t'.toLexeme = none → u'.ancestors i = u.ancestors i) := by
  refine ⟨wellEnclosed_of_parse h i, ?_⟩
  intro path' text' u' t t' h' hBefore hToken hTrivia hToken'
  have hFilter := SourceUnit.ancestors_filter h h' hBefore hToken hTrivia hToken'
  refine ⟨hFilter, fun hClosed => ?_⟩
  rw [hFilter, List.filter_eq_self]
  intro o ho
  rw [decide_eq_true_iff]
  intro hMatching
  obtain ⟨-, -, ho, -⟩ := (SourceUnit.mem_ancestors_iff h).mp ho
  rcases (SourceUnit.matching_eq_some_iff h').mp hMatching with hCloses | hCloses
  · obtain ⟨b, hOther⟩ := SourceUnit.closed?_of_closes hCloses hToken'
    cases hClosed.symm.trans hOther
  · exact absurd hCloses.lt (by omega)

theorem enclosing_exact_call :
    ∃ u u', SourceUnit.parse "a.js" "f( [a])" = .ok u ∧
      SourceUnit.parse "a.js" "f(+[a])" = .ok u' ∧
      u.tokens.toList.take 2 = u'.tokens.toList.take 2 ∧ u.ancestors 4 = [3, 1] ∧
      WellEnclosed u 4 ∧ u'.ancestors 2 = u.ancestors 2 := by
  let space : Token := ⟨⟨.whitespace, " ", 1⟩, 2, 3⟩
  let plus : Token := ⟨⟨.punctuator, "+", 1⟩, 2, 3⟩
  let start : List Token := [⟨⟨.identifier, "f", 1⟩, 0, 1⟩, ⟨⟨.punctuator, "(", 1⟩, 1, 2⟩]
  have hParse : ((SourceUnit.parse "a.js" "f( [a])").toOption.any fun u => decide
      (u.tokens.toList.take 2 = start ∧ u.token? 2 = some space ∧ u.ancestors 4 = [3, 1])) =
      true := by
    decide +kernel
  have hParse' : ((SourceUnit.parse "a.js" "f(+[a])").toOption.any fun u => decide
      (u.tokens.toList.take 2 = start ∧ u.token? 2 = some plus)) = true := by
    decide +kernel
  obtain ⟨u, hu, hTokens⟩ := (Option.any_eq_true _ _).mp hParse
  obtain ⟨u', hu', hTokens'⟩ := (Option.any_eq_true _ _).mp hParse'
  rw [toOption_eq_some_iff] at hu hu'
  obtain ⟨hStart, hSpace, hAround⟩ := of_decide_eq_true hTokens
  obtain ⟨hStart', hPlus⟩ := of_decide_eq_true hTokens'
  have hBefore := hStart'.trans hStart.symm
  obtain ⟨-, hPlace⟩ := enclosing_exact "a.js" "f( [a])" u hu 2
  obtain ⟨-, hSame⟩ := hPlace "a.js" "f(+[a])" u' space plus hu' hBefore hSpace rfl hPlus
  exact ⟨u, u', hu, hu', hBefore.symm, hAround, (enclosing_exact _ _ u hu 4).1, hSame (by decide)⟩

end RuleScout
