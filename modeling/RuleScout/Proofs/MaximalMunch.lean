import RuleScout.Proofs.FirstFound
import RuleScout.Proofs.Tokens

/-!
# Tokens are as long as they can be

What stands behind a token could not have belonged to it. For a run of characters this is said of
the next character, for a punctuator of the whole table: no longer entry stands in its place. The
first entry that fits is the longest because the table is in order of length.
-/

set_option autoImplicit false

namespace RuleScout

open Text Literal

/-- A token of the kind that consists of `own` could not be longer in front of `behind`. Strings,
templates and block comments end with a mark of their own. -/
def Maximal (kind : TokenKind) (own behind : List Char) : Prop :=
  match kind with
  | .punctuator => ∀ p ∈ punctuators, own.length < p.length → ¬p.toList <+: own ++ behind
  | .identifier | .keyword => ∀ c ∈ behind.head?, isNamePart c = false
  | .number => ∀ c ∈ behind.head?, c.isAlphanum = false ∧ c ≠ '_' ∧ c ≠ '.'
  | .whitespace => ∀ c ∈ behind.head?, isSpacing c = true → c = '\n' ∨ c = '\r'
  | .regex => ∀ c ∈ behind.head?, c.isAlpha = false
  | .lineComment => ∀ c ∈ behind.head?, c = '\n' ∨ c = '\r'
  | .newline => own = ['\r'] → '\n' ∉ behind.head?
  | .string | .template | .blockComment => True

/-- How a token of a text ends, between the texts before and behind it: as late as it can, a line
comment in front of a line break, and a word as a keyword if it is one. -/
structure EndsLate (text : String) (ts : List Token) (i : Nat) (t : Token)
    (before behind : List Char) : Prop where
  text_eq : text.toList = before ++ (t.chars ++ behind)
  start_eq : t.start = extent before
  maximal : Maximal t.kind t.chars behind
  broken : t.kind = .lineComment → behind ≠ [] →
    ∃ next, ts[i + 1]? = some next ∧ next.kind = .newline
  keyword : t.kind = .identifier ∨ t.kind = .keyword → (t.kind = .keyword ↔ t.text ∈ keywords)

namespace Cursor

variable {cur : Cursor} {kind : TokenKind} {c : Char} {cs pre rest : List Char} {p q : String}

theorem punctuators_ordered : punctuators.Pairwise fun p q => q.length ≤ p.length := by decide

/-- Of the punctuators that fit, the first is a longest one. -/
theorem length_le_of_find? (hFound : punctuators.find? (fun p => p.toList.isPrefixOf cs) = some p)
    (hListed : q ∈ punctuators) (hFits : q.toList <+: cs) : q.length ≤ p.length :=
  rel_of_find?_pairwise (R := fun p q => q.length ≤ p.length) (fun p => Nat.le_refl p.length)
    punctuators_ordered hFound hListed (List.isPrefixOf_iff_prefix.mpr hFits)

theorem eq_of_isLineBreak (h : isLineBreak c = true) : c = '\n' ∨ c = '\r' := by
  simpa [isLineBreak] using h

theorem Reads.maximal (h : cur.Reads kind c pre rest) : Maximal kind (c :: pre) rest := by
  cases h with
  | shebang hStart hMark hRun =>
    intro d hd
    exact .inl (by simpa using hRun.stops d hd)
  | lineFeed => exact fun hOwn => by cases hOwn
  | returnAndFeed => exact fun hOwn => by cases hOwn
  | loneReturn hAlone => exact fun _ => hAlone
  | whitespace hSpacing hInline hRun =>
    intro d hd hBlank
    have hStop := hRun.stops d hd
    rw [hBlank, Bool.true_and, Bool.not_eq_false'] at hStop
    exact eq_of_isLineBreak hStop
  | lineComment hMark hRun =>
    intro d hd
    exact eq_of_isLineBreak (by simpa using hRun.stops d hd)
  | blockComment hBody => trivial
  | regex hAllowed hLine hBlock hBody hFlags => exact hFlags.stops
  | string hQuote hBody => trivial
  | template hBody => trivial
  | number hDigit hRun =>
    intro d hd
    have hStop := hRun.stops d hd
    simpa [isNumberPart, and_assoc] using hStop
  | word hStart hRun =>
    split
    · exact hRun.stops
    · exact hRun.stops
  | punctuator hDivision hPoint hLongest =>
    intro q hListed hLonger hFits
    have hLength := length_le_of_find? hLongest hListed hFits
    rw [String.length_ofList] at hLength
    exact Nat.not_lt_of_le hLength hLonger

theorem Reads.keyword_iff (h : cur.Reads kind c pre rest)
    (hWord : kind = .identifier ∨ kind = .keyword) :
    kind = .keyword ↔ String.ofList (c :: pre) ∈ keywords := by
  cases h with
  | word hStart hRun =>
    split
    · exact iff_of_true rfl ‹_›
    · exact iff_of_false nofun ‹_›
  | _ => rcases hWord with hKind | hKind <;> cases hKind

/-- Where a line break stands, a newline token is cut off. -/
theorem Reads.newline_of_isLineBreak (h : cur.Reads kind c pre rest)
    (hBreak : c = '\n' ∨ c = '\r') : kind = .newline := by
  have hCut := lexeme_of_reads h
  rcases hBreak with rfl | rfl
  · rw [lexeme_lineFeed] at hCut
    exact (Prod.mk.inj (Except.ok.inj hCut)).1.symm
  · rw [lexeme_return] at hCut
    exact (Prod.mk.inj (Except.ok.inj hCut)).1.symm

section Tokens

variable {t : Token} {us vs : List Token} (h : Cuts cur cs (us ++ t :: vs))
include h

/-- A token reads as one in front of the tokens behind it. -/
theorem Cuts.exists_reads_at :
    ∃ c pre, t.chars = c :: pre ∧
      (us.foldl pass cur).Reads t.kind c pre (vs.flatMap (·.chars)) := by
  obtain ⟨c, pre, rest, hText, hChars, hReads⟩ := h.reads
  rw [← h.flatMap_chars, List.flatMap_append, List.flatMap_cons, hChars, List.cons_append,
    List.append_cancel_left_eq, List.cons.injEq, List.append_cancel_left_eq] at hText
  exact ⟨c, pre, hChars, hText.2 ▸ hReads⟩

theorem Cuts.maximal : Maximal t.kind t.chars (vs.flatMap (·.chars)) := by
  obtain ⟨c, pre, hChars, hReads⟩ := h.exists_reads_at
  rw [hChars]
  exact hReads.maximal

theorem Cuts.keyword_iff (hWord : t.kind = .identifier ∨ t.kind = .keyword) :
    t.kind = .keyword ↔ t.text ∈ keywords := by
  obtain ⟨c, pre, hChars, hReads⟩ := h.exists_reads_at
  have hText : t.text = String.ofList (c :: pre) := by
    rw [← hChars, Lexeme.chars, String.ofList_toList]
  rw [hText]
  exact hReads.keyword_iff hWord

/-- Behind a line comment there is nothing or a newline token. -/
theorem Cuts.newline_behind (hComment : t.kind = .lineComment) :
    ∀ next ∈ vs.head?, next.kind = .newline := by
  intro next hNext
  obtain ⟨others, rfl⟩ := List.head?_eq_some_iff.mp hNext
  have hStops := h.maximal
  have hLater : Cuts cur cs ((us ++ [t]) ++ next :: others) := by simpa using h
  obtain ⟨d, tail, hChars, hReads⟩ := hLater.exists_reads_at
  rw [hComment] at hStops
  refine hReads.newline_of_isLineBreak (hStops d ?_)
  rw [List.flatMap_cons, hChars]
  rfl

end Tokens

end Cursor

/-- No token of a text could have been longer. -/
theorem tokens_maximal (text : String) (ts : List Token) (h : lex text = .ok ts) (i : Nat)
    (t : Token) (ht : ts[i]? = some t) :
    ∃ before behind, EndsLate text ts i t before behind := by
  obtain ⟨hi, rfl⟩ := List.getElem?_eq_some_iff.mp ht
  have hSplit : ts = ts.take i ++ ts[i] :: ts.drop (i + 1) := by
    rw [List.getElem_cons_drop, List.take_append_drop]
  have hCuts := cuts_of_lex h
  rw [hSplit] at hCuts
  refine ⟨(ts.take i).flatMap (·.chars), (ts.drop (i + 1)).flatMap (·.chars), ?_, ?_, hCuts.maximal,
    ?_, hCuts.keyword_iff⟩
  · rw [← hCuts.flatMap_chars, List.flatMap_append, List.flatMap_cons]
  · rw [hCuts.start_eq, Nat.zero_add]
  · intro hComment hMore
    obtain ⟨next, others, hBehind⟩ : ∃ next others, ts.drop (i + 1) = next :: others := by
      apply List.exists_cons_of_ne_nil
      intro hNone
      rw [hNone] at hMore
      exact hMore rfl
    refine ⟨next, ?_, hCuts.newline_behind hComment next (by rw [hBehind]; rfl)⟩
    rw [← List.head?_drop, hBehind]
    rfl

theorem tokens_maximal_comment :
    let text := "a>>>=#if//é\r\n"
    let comment : Token := ⟨⟨.lineComment, "//é", 1⟩, 8, 9⟩
    let ts : List Token :=
      [⟨⟨.identifier, "a", 1⟩, 0, 1⟩, ⟨⟨.punctuator, ">>>=", 1⟩, 1, 2⟩,
        ⟨⟨.identifier, "#if", 1⟩, 5, 6⟩, comment, ⟨⟨.newline, "\r\n", 1⟩, 12, 12⟩]
    lex text = .ok ts ∧ ts[3]? = some comment ∧
      ∃ before behind, EndsLate text ts 3 comment before behind := by
  intro text comment ts
  have hLex : lex text = .ok ts := toOption_eq_some_iff.mp (by decide +kernel)
  exact ⟨hLex, rfl, tokens_maximal text ts hLex 3 comment rfl⟩

end RuleScout
