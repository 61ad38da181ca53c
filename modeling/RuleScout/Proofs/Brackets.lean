import RuleScout.Proofs.Matching
import RuleScout.Proofs.Template
import RuleScout.Source.Unit

/-!
# The brackets of a source unit

A text that can be cut into tokens is refused for its brackets only, and exactly when they are
not well nested. A source unit knows for each bracket the one on the other side.
-/

set_option autoImplicit false

namespace RuleScout

/-- What is known of the pairs closed from index `i` on when nothing is left open. -/
structure Settled (ls : List Lexeme) (i : Nat) (pairs : List BracketPair) : Prop where
  closes : ∀ p ∈ pairs, Closes ls p.opener p.closer
  brace : ∀ p ∈ pairs, ∀ b, markAt ls p.opener = some (.opening b) → p.brace = braceOf ls p.opener b
  closers : ∀ c, i ≤ c → ∀ b, markAt ls c = some (.closing b) → ∃ p ∈ pairs, p.closer = c
  openers : ∀ o b, markAt ls o = some (.opening b) → ∃ c, Closes ls o c

/-- What the outcome of reading the lexemes from index `i` on says about all of them. -/
def Judged (ls : List Lexeme) (i : Nat) : Except NestError Nesting → Prop
  | .ok n => Nested (marks ls) ∧ Settled ls i n.pairs
  | .error e => ¬Nested (marks ls) ∧ Culprit ls e.index

variable {ls ts : List Lexeme} {i : Nat} {stack below : List OpenBracket}
  {previous : Option Lexeme} {t : Lexeme} {b : Bracket} {p : OpenBracket} {pairs : List BracketPair}
  {outcome : Except NestError Nesting}

namespace Settled

theorem finish (h : Open ls ls.length []) : Settled ls ls.length [] where
  closes p hp := by cases hp
  brace p hp := by cases hp
  closers c hc b hMark := by
    rw [markAt, List.getElem?_eq_none hc] at hMark
    cases hMark
  openers o b hMark := by
    rcases h.complete o (lt_length_of_markAt hMark) b hMark with ⟨p, hp, -⟩ | ⟨c, -, hCloses⟩
    · cases hp
    · exact ⟨c, hCloses⟩

theorem keep (h : Settled ls (i + 1) pairs) (hMark : ∀ b, markAt ls i ≠ some (.closing b)) :
    Settled ls i pairs where
  closes := h.closes
  brace := h.brace
  closers c hc b hClosing := by
    have hNe : i ≠ c := by
      rintro rfl
      exact hMark b hClosing
    exact h.closers c (by omega) b hClosing
  openers := h.openers

theorem add (h : Settled ls (i + 1) pairs) (hOpen : Open ls i (p :: below))
    (hMark : markAt ls i = some (.closing p.bracket)) :
    Settled ls i (⟨p.index, i, p.brace⟩ :: pairs) where
  closes q hq := by
    rcases List.mem_cons.mp hq with rfl | hq
    · exact hOpen.closes hMark
    · exact h.closes q hq
  brace q hq b hOpening := by
    rcases List.mem_cons.mp hq with rfl | hq
    · have hOwn := hOpen.opener p List.mem_cons_self
      rw [hOwn] at hOpening
      cases hOpening
      exact hOpen.brace p List.mem_cons_self
    · exact h.brace q hq b hOpening
  closers c hc b hClosing := by
    rcases Nat.eq_or_lt_of_le hc with rfl | hLt
    · exact ⟨_, List.mem_cons_self, rfl⟩
    · obtain ⟨q, hq, hIndex⟩ := h.closers c hLt b hClosing
      exact ⟨q, List.mem_cons_of_mem _ hq, hIndex⟩
  openers := h.openers

end Settled

namespace Judged

theorem keep (h : Judged ls (i + 1) outcome) (hMark : ∀ b, markAt ls i ≠ some (.closing b)) :
    Judged ls i ((Nesting.enclose stack ·) <$> outcome) := by
  cases outcome with
  | error e => exact h
  | ok n => exact ⟨h.1, h.2.keep hMark⟩

theorem add (h : Judged ls (i + 1) outcome) (hOpen : Open ls i (p :: below))
    (hMark : markAt ls i = some (.closing p.bracket)) :
    Judged ls i ((fun n => (n.enclose below).pair ⟨p.index, i, p.brace⟩) <$> outcome) := by
  cases outcome with
  | error e => exact h
  | ok n => exact ⟨h.1, h.2.add hOpen hMark⟩

end Judged

/-! ## Reading one lexeme -/

theorem nest_cons (i : Nat) (stack : List OpenBracket) (previous : Option Lexeme) (t : Lexeme)
    (ts : List Lexeme) :
    nest i stack previous (t :: ts) =
      let next := if t.isSignificant then some t else previous
      match t.mark? with
      | none => (Nesting.enclose stack ·) <$> nest (i + 1) stack next ts
      | some (.opening b) =>
        let brace := if b = .curly then some (BraceKind.after previous) else none
        (Nesting.enclose stack ·) <$> nest (i + 1) (⟨i, b, brace⟩ :: stack) next ts
      | some (.closing b) =>
        match stack with
        | [] => .error ⟨.unexpectedClosing b, i⟩
        | p :: below =>
          if p.bracket = b then
            (fun n => (n.enclose below).pair ⟨p.index, i, p.brace⟩) <$> nest (i + 1) below next ts
          else .error ⟨.wrongClosing p.bracket b, i⟩ := by
  rw [nest, Lexeme.mark?]
  cases Bracket.opened? t with
  | some b => rfl
  | none => cases Bracket.closed? t <;> rfl

theorem not_misfit (hMark : ∀ b, markAt ls i ≠ some (.closing b)) : ¬Misfit ls i := by
  intro hMisfit
  obtain ⟨b, hClosing⟩ := hMisfit.closer
  exact hMark b hClosing

theorem judged_end (hOpen : Open ls ls.length stack) (hFit : ∀ d < ls.length, ¬Misfit ls d) :
    Judged ls ls.length (nest ls.length stack previous []) := by
  have hRead := hOpen.read
  rw [List.take_length] at hRead
  have hAll : ∀ d, ¬Misfit ls d := by
    intro d hMisfit
    obtain ⟨b, hMark⟩ := hMisfit.closer
    exact hFit d (lt_length_of_markAt hMark) hMisfit
  cases stack with
  | nil => exact ⟨nested_iff_consume.mpr hRead, .finish hOpen⟩
  | cons p below =>
    refine ⟨fun hNested => ?_, .unclosed (hOpen.innermost_iff.mpr rfl) hAll⟩
    rw [nested_iff_consume.mp hNested] at hRead
    cases hRead

theorem judged_refused (hOpen : Open ls i stack) (hMark : markAt ls i = some (.closing b))
    (hTop : ∀ p ∈ stack.head?, p.bracket ≠ b) (hFit : ∀ d < i, ¬Misfit ls d)
    (fault : SyntaxFault) : Judged ls i (.error ⟨fault, i⟩) :=
  ⟨hOpen.not_nested_of_misfit hMark hTop, .misfit ((hOpen.misfit_iff hMark).mpr hTop) hFit⟩

/-- Reading from index `i` on with the right stack. -/
theorem judged_nest (hOpen : Open ls i stack) (hLe : i ≤ ls.length) (hRest : ls.drop i = ts)
    (hPrevious : previous = significantBefore ls i) (hFit : ∀ d < i, ¬Misfit ls d) :
    Judged ls i (nest i stack previous ts) := by
  -- `hFit` is carried along because an error is reported at the first bracket that does not fit
  induction ts generalizing i stack previous with
  | nil =>
    obtain rfl : i = ls.length := Nat.le_antisymm hLe (List.drop_eq_nil_iff.mp hRest)
    exact judged_end hOpen hFit
  | cons t ts ih =>
    obtain ⟨hAt, hNext⟩ := at_of_drop hRest
    have hLt : i + 1 ≤ ls.length := (List.getElem?_eq_some_iff.mp hAt).1
    have hAfter := significantBefore_succ hAt
    have hMarkAt : markAt ls i = t.mark? := by rw [markAt, hAt, Option.bind_some]
    have hStep (hHere : ¬Misfit ls i) : ∀ d < i + 1, ¬Misfit ls d := by
      intro d hd
      rcases Nat.lt_succ_iff_lt_or_eq.mp hd with hLt | rfl
      · exact hFit d hLt
      · exact hHere
    rw [nest_cons, hPrevious, ← hAfter]
    cases hMark : t.mark? with
    | none =>
      rw [hMark] at hMarkAt
      have hNoCloser (b : Bracket) : markAt ls i ≠ some (.closing b) := by simp [hMarkAt]
      exact (ih (hOpen.plain hMarkAt) hLt hNext rfl (hStep (not_misfit hNoCloser))).keep hNoCloser
    | some m =>
      rw [hMark] at hMarkAt
      cases m with
      | opening b =>
        have hNoCloser (b : Bracket) : markAt ls i ≠ some (.closing b) := by simp [hMarkAt]
        exact (ih (hOpen.push hMarkAt) hLt hNext rfl (hStep (not_misfit hNoCloser))).keep hNoCloser
      | closing b =>
        cases stack with
        | nil =>
          have hTop : ∀ p ∈ ([] : List OpenBracket).head?, p.bracket ≠ b := by simp
          exact judged_refused hOpen hMarkAt hTop hFit _
        | cons p below =>
          by_cases hSort : p.bracket = b
          · subst hSort
            have hHere : ¬Misfit ls i := by
              rw [hOpen.misfit_iff hMarkAt]
              exact fun hTop => hTop p rfl rfl
            simp only [if_true]
            exact (ih (hOpen.pop hMarkAt) hLt hNext rfl (hStep hHere)).add hOpen hMarkAt
          · have hTop : ∀ q ∈ (p :: below).head?, q.bracket ≠ b := by
              rintro q hq
              cases hq
              exact hSort
            simp only [if_neg hSort]
            exact judged_refused hOpen hMarkAt hTop hFit _

/-! ## Asking for the other bracket -/

section Pairs

variable {n : Nesting} {o c j : Nat} (h : Settled ls 0 n.pairs)
include h

theorem pairOf_closes (hCloses : Closes ls o c) (hi : i = o ∨ i = c) :
    ∃ p ∈ n.pairs, (Structure.ofNesting n).pairOf i = some p ∧ p.opener = o ∧ p.closer = c := by
  obtain ⟨b, -, hClosing⟩ := hCloses.sort
  obtain ⟨q, hq, hCloser⟩ := h.closers c (Nat.zero_le c) b hClosing
  have hOpener : q.opener = o := (hCloser ▸ h.closes q hq).opener_unique hCloses
  have hFound : ((Structure.ofNesting n).pairOf i).isSome = true := by
    rw [Structure.pairOf, List.find?_isSome]
    refine ⟨q, hq, ?_⟩
    rw [hOpener, hCloser, Bool.or_eq_true, decide_eq_true_eq, decide_eq_true_eq]
    exact hi.imp Eq.symm Eq.symm
  obtain ⟨p, hPair⟩ := Option.isSome_iff_exists.mp hFound
  have hp : p ∈ n.pairs := List.mem_of_find?_eq_some hPair
  have hOwn := h.closes p hp
  have hAt : p.opener = i ∨ p.closer = i := by simpa using List.find?_some hPair
  refine ⟨p, hp, hPair, ?_⟩
  -- the entry that is found has `i` on one of its sides, and on the same side as the pair
  rcases hi with rfl | rfl
  · rcases hAt with rfl | rfl
    · exact ⟨rfl, hOwn.closer_unique hCloses⟩
    · exact absurd rfl (hCloses.ne_closer hOwn)
  · rcases hAt with rfl | rfl
    · exact absurd rfl (hOwn.ne_closer hCloses)
    · exact ⟨hOwn.opener_unique hCloses, rfl⟩

theorem matching_iff :
    (Structure.ofNesting n).matching i = some j ↔ Closes ls i j ∨ Closes ls j i := by
  constructor
  · intro hMatching
    obtain ⟨p, hPair, hOther⟩ := Option.map_eq_some_iff.mp hMatching
    have hOwn := h.closes p (List.mem_of_find?_eq_some hPair)
    have hAt : p.opener = i ∨ p.closer = i := by simpa using List.find?_some hPair
    by_cases hOpener : p.opener = i
    · rw [if_pos hOpener] at hOther
      subst hOpener hOther
      exact .inl hOwn
    · rw [if_neg hOpener] at hOther
      rcases hAt with hAt | rfl
      · exact absurd hAt hOpener
      · subst hOther
        exact .inr hOwn
  · rintro (hCloses | hCloses)
    · obtain ⟨p, -, hPair, hOpener, hCloser⟩ := pairOf_closes h hCloses (.inl rfl)
      rw [Structure.matching, hPair, Option.map_some, if_pos hOpener, hCloser]
    · obtain ⟨p, -, hPair, hOpener, hCloser⟩ := pairOf_closes h hCloses (.inr rfl)
      have hNe : p.opener ≠ i := by
        rw [hOpener]
        exact Nat.ne_of_lt hCloses.lt
      rw [Structure.matching, hPair, Option.map_some, if_neg hNe, hOpener]

theorem braceKind_closes (hCloses : Closes ls o c) (hMark : markAt ls o = some (.opening b))
    (hi : i = o ∨ i = c) : (Structure.ofNesting n).braceKind i = braceOf ls o b := by
  obtain ⟨p, hp, hPair, rfl, -⟩ := pairOf_closes h hCloses hi
  rw [Structure.braceKind, hPair, Option.bind_some]
  exact h.brace p hp b hMark

end Pairs

structure WellMatched (ls : List Lexeme) (u : SourceUnit) : Prop where
  defined : ∀ i, (u.matching i).isSome = true ↔ ∃ t, ls[i]? = some t ∧ t.kind = .punctuator ∧
    t.text ∈ ["(", ")", "[", "]", "\x7b", "\x7d"]
  involutive : ∀ i j, u.matching i = some j → u.matching j = some i
  distinct : ∀ i j, u.matching i = some j → i ≠ j
  opener : ∀ o b, markAt ls o = some (.opening b) → ∃ c, u.matching o = some c ∧ Closes ls o c
  uncrossed : ∀ o c q d, u.matching o = some c → u.matching q = some d → o < q → q < c →
    o < d ∧ d < c
  brace : ∀ o c, u.matching o = some c → markAt ls o = some (.opening .curly) →
    ∃ kind, u.braceKind o = some kind ∧ u.braceKind c = some kind

theorem wellMatched_of_settled {u : SourceUnit} {n : Nesting} (h : Settled ls 0 n.pairs)
    (hBrackets : u.brackets = .ofNesting n) : WellMatched ls u := by
  have hMatching (i j : Nat) : u.matching i = some j ↔ Closes ls i j ∨ Closes ls j i := by
    rw [SourceUnit.matching, hBrackets]
    exact matching_iff h
  constructor
  case defined =>
    intro i
    rw [← markAt_isSome_iff, Option.isSome_iff_exists, Option.isSome_iff_exists]
    constructor
    · rintro ⟨j, hij⟩
      rcases (hMatching i j).mp hij with hCloses | hCloses
      · obtain ⟨b, hMark, -⟩ := hCloses.sort
        exact ⟨_, hMark⟩
      · obtain ⟨b, -, hMark⟩ := hCloses.sort
        exact ⟨_, hMark⟩
    · rintro ⟨m, hMark⟩
      cases m with
      | opening b =>
        obtain ⟨c, hCloses⟩ := h.openers i b hMark
        exact ⟨c, (hMatching i c).mpr (.inl hCloses)⟩
      | closing b =>
        obtain ⟨p, hp, rfl⟩ := h.closers i (Nat.zero_le i) b hMark
        exact ⟨p.opener, (hMatching _ _).mpr (.inr (h.closes p hp))⟩
  case involutive =>
    intro i j hij
    rw [hMatching] at hij ⊢
    exact hij.symm
  case distinct =>
    intro i j hij
    rcases (hMatching i j).mp hij with hCloses | hCloses
    · exact Nat.ne_of_lt hCloses.lt
    · exact Nat.ne_of_gt hCloses.lt
  case opener =>
    intro o b hMark
    obtain ⟨c, hCloses⟩ := h.openers o b hMark
    exact ⟨c, (hMatching o c).mpr (.inl hCloses), hCloses⟩
  case uncrossed =>
    intro o c q d hoc hqd hoq hqc
    have hOuter : Closes ls o c := by
      rcases (hMatching o c).mp hoc with hCloses | hCloses
      · exact hCloses
      · exact absurd hCloses.lt (by omega)
    exact hOuter.encloses ((hMatching q d).mp hqd) hoq hqc
  case brace =>
    intro o c hoc hMark
    have hCloses : Closes ls o c := by
      rcases (hMatching o c).mp hoc with hCloses | hCloses
      · exact hCloses
      · obtain ⟨b, -, hClosing⟩ := hCloses.sort
        rw [hMark] at hClosing
        cases hClosing
    refine ⟨.after (significantBefore ls o), ?_, ?_⟩
    · rw [SourceUnit.braceKind, hBrackets]
      exact braceKind_closes h hCloses hMark (.inl rfl)
    · rw [SourceUnit.braceKind, hBrackets]
      exact braceKind_closes h hCloses hMark (.inr rfl)

/-- Brackets are what decides about a text that can be cut into tokens. -/
theorem parse_brackets (path text : String) (ts : List Token) (h : lex text = .ok ts) :
    ((∃ u, SourceUnit.parse path text = .ok u) ↔ Nested (marks (ts.map Token.toLexeme))) ∧
    (∀ u, SourceUnit.parse path text = .ok u →
      u.tokens.toList = ts ∧ WellMatched (ts.map Token.toLexeme) u) ∧
    (∀ e, SourceUnit.parse path text = .error e →
      ∃ i t, ts[i]? = some t ∧ e.line = t.line ∧ e.column = t.column ∧
        Culprit (ts.map Token.toLexeme) i) := by
  have hJudged : Judged (ts.map Token.toLexeme) 0 (nest 0 [] none (ts.map Token.toLexeme)) :=
    judged_nest (.start _) (Nat.zero_le _) List.drop_zero rfl fun d hd => by cases hd
  simp only [SourceUnit.parse, h]
  cases hNest : nest 0 [] none (ts.map Token.toLexeme) with
  | ok n =>
    rw [hNest] at hJudged
    obtain ⟨hNested, hSettled⟩ := hJudged
    refine ⟨⟨fun _ => hNested, fun _ => ⟨_, rfl⟩⟩, ?_, ?_⟩
    · intro u hu
      cases hu
      exact ⟨rfl, wellMatched_of_settled hSettled rfl⟩
    · intro e he
      cases he
  | error e =>
    rw [hNest] at hJudged
    obtain ⟨hNot, hCulprit⟩ := hJudged
    refine ⟨⟨?_, fun hNested => absurd hNested hNot⟩, ?_, ?_⟩
    · rintro ⟨u, hu⟩
      cases hu
    · intro u hu
      cases hu
    · intro f hf
      obtain ⟨t, ht⟩ : ∃ t, ts[e.index]? = some t := by
        have hLt := hCulprit.lt_length
        rw [List.length_map] at hLt
        exact ⟨_, List.getElem?_eq_getElem hLt⟩
      simp only [SourceUnit.bracketError, ht] at hf
      cases hf
      exact ⟨e.index, t, ht, rfl, rfl, hCulprit⟩

theorem parse_brackets_quoted :
    let text := "(\x7b'\x7d'\x7d)"
    let ts : List Token :=
      [⟨⟨.punctuator, "(", 1⟩, 0, 1⟩, ⟨⟨.punctuator, "\x7b", 1⟩, 1, 2⟩,
        ⟨⟨.string, "'\x7d'", 1⟩, 2, 3⟩, ⟨⟨.punctuator, "\x7d", 1⟩, 5, 6⟩,
        ⟨⟨.punctuator, ")", 1⟩, 6, 7⟩]
    lex text = .ok ts ∧ ∃ u, SourceUnit.parse "a.js" text = .ok u ∧
      WellMatched (ts.map Token.toLexeme) u := by
  intro text ts
  have hLex : lex text = .ok ts := toOption_eq_some_iff.mp (by decide +kernel)
  obtain ⟨hAccepted, hMatched, -⟩ := parse_brackets "a.js" text ts hLex
  have hNested : Nested (marks (ts.map Token.toLexeme)) := .wrap .round (.wrap .curly .nil .nil) .nil
  obtain ⟨u, hu⟩ := hAccepted.mpr hNested
  exact ⟨hLex, u, hu, (hMatched u hu).2⟩

end RuleScout
