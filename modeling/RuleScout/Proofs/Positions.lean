import RuleScout.Proofs.Spelling
import RuleScout.Proofs.Tokens

/-!
# Lines and columns of tokens

A line of a text ends behind a line feed, and behind a carriage return that no line feed follows.
The cursor finds these ends token by token, each from the characters of the token alone. That is
enough because no token ends between a carriage return and its line feed; only the mark of an
interpreter at the start of a text may end there.
-/

set_option autoImplicit false

namespace RuleScout

open Text Literal

/-! ## Where lines end -/

namespace Text

/-- Whether a line terminator ends before the character with the given index. -/
def endsLine (cs : List Char) : Nat → Bool
  | 0 => false
  | i + 1 => cs[i]? = some '\n' || (cs[i]? = some '\r' && cs[i + 1]? ≠ some '\n')

/-- The number of line terminators among the first `p` characters. -/
def lineEnds (cs : List Char) (p : Nat) : Nat := (List.range (p + 1)).countP (endsLine cs)

/-- The line of the character with index `p` starts at index `s`. -/
structure StartsLine (cs : List Char) (s p : Nat) : Prop where
  le : s ≤ p
  start : s = 0 ∨ endsLine cs s = true
  last : ∀ i, s < i → i ≤ p → endsLine cs i = false

theorem lineEnds_succ (cs : List Char) (p : Nat) :
    lineEnds cs (p + 1) = lineEnds cs p + if endsLine cs (p + 1) then 1 else 0 := by
  rw [lineEnds, List.range_succ, List.countP_append, List.countP_singleton]
  rfl

theorem StartsLine.continue {cs : List Char} {s p : Nat} (h : StartsLine cs s p)
    (hInside : endsLine cs (p + 1) = false) : StartsLine cs s (p + 1) where
  le := Nat.le_succ_of_le h.le
  start := h.start
  last i hLow hHigh := by
    rcases Nat.le_succ_iff.mp hHigh with hEarlier | rfl
    · exact h.last i hLow hEarlier
    · exact hInside

theorem StartsLine.fresh {cs : List Char} {p : Nat} (hEnd : endsLine cs p = true) :
    StartsLine cs p p where
  le := Nat.le_refl p
  start := .inr hEnd
  last _ hLow hHigh := absurd hLow (Nat.not_lt.mpr hHigh)

end Text

namespace Cursor

variable {cur : Cursor} {kind : TokenKind} {c : Char} {cs pre rest text before : List Char}
  {ts : List Token} {p : Nat}

/-! ## The cursor in the text -/

/-- The cursor shows the line and the column of the character with index `p`. -/
structure At (cur : Cursor) (text : List Char) (p : Nat) : Prop where
  line : cur.line = 1 + lineEnds text p
  column : ∃ s, StartsLine text s p ∧ cur.column = 1 + (p - s)

theorem at_start (text : List Char) : ({} : Cursor).At text 0 where
  line := rfl
  column := by
    refine ⟨0, ⟨Nat.le_refl 0, .inl rfl, ?_⟩, rfl⟩
    intro i hLow hHigh
    exact absurd hLow (Nat.not_lt.mpr hHigh)

theorem At.newLine (h : cur.At text p) (hEnd : endsLine text (p + 1) = true) (offset : Nat) :
    { cur with offset, line := cur.line + 1, column := 1 }.At text (p + 1) where
  line := by
    rw [lineEnds_succ, hEnd, h.line]
    rfl
  column := ⟨p + 1, .fresh hEnd, by simp⟩

theorem At.nextColumn (h : cur.At text p) (hInside : endsLine text (p + 1) = false)
    (offset : Nat) : { cur with offset, column := cur.column + 1 }.At text (p + 1) where
  line := by
    rw [lineEnds_succ, hInside, h.line]
    rfl
  column := by
    obtain ⟨s, hStart, hColumn⟩ := h.column
    refine ⟨s, hStart.continue hInside, ?_⟩
    have hLe := hStart.le
    simp only
    omega

theorem At.advance (h : cur.At text before.length) (hText : text = before ++ (cs ++ rest))
    (hWhole : cs.getLast? = some '\r' → rest.head? ≠ some '\n') :
    (cur.advance cs).At text (before ++ cs).length := by
  induction cs generalizing cur before with
  | nil => rwa [List.append_nil]
  | cons c cs ih =>
    have hAt : text[before.length]? = some c := by
      rw [hText, List.getElem?_append_right (Nat.le_refl _), Nat.sub_self]
      rfl
    have hNext : text[before.length + 1]? = (cs ++ rest).head? := by
      rw [hText, List.getElem?_append_right (Nat.le_add_right _ 1),
        Nat.add_sub_cancel_left, List.head?_eq_getElem?]
      rfl
    -- the cursor looks ahead in the token only, `endsLine` in the whole text
    have hBreak : (c = '\n' || (c = '\r' && cs.head? ≠ some '\n')) =
        endsLine text (before.length + 1) := by
      rw [endsLine, hAt, hNext]
      cases cs with
      | nil =>
        by_cases hReturn : c = '\r'
        · subst hReturn
          simpa using hWhole rfl
        · simp [hReturn]
      | cons d ds => simp
    have hWholeRest : cs.getLast? = some '\r' → rest.head? ≠ some '\n' :=
      fun hLast => hWhole (getLast?_cons_of_some hLast)
    have hTextRest : text = (before ++ [c]) ++ (cs ++ rest) := by simp [hText]
    rw [Cursor.advance, hBreak, List.append_cons]
    split
    · rename_i hEnd
      apply ih _ hTextRest hWholeRest
      rw [List.length_append]
      exact h.newLine hEnd _
    · rename_i hInside
      apply ih _ hTextRest hWholeRest
      rw [List.length_append]
      exact h.nextColumn (Bool.not_eq_true _ ▸ hInside) _

theorem At.pass (h : cur.At text before.length) {t : Token}
    (hText : text = before ++ (t.chars ++ rest))
    (hWhole : t.chars.getLast? = some '\r' → rest.head? ≠ some '\n') :
    (cur.pass t).At text (before ++ t.chars).length := by
  have hAdvance := h.advance hText hWhole
  rw [Cursor.pass]
  split
  · exact hAdvance
  · exact ⟨hAdvance.line, hAdvance.column⟩

/-! ## Tokens do not cut line terminators -/

theorem isLineBreak_eq_false {p : Char → Bool} (hFeed : p '\n' = false) (hReturn : p '\r' = false)
    {d : Char} (hd : p d = true) : isLineBreak d = false := by
  cases hBreak : isLineBreak d with
  | false => rfl
  | true =>
    have hCases : d = '\n' ∨ d = '\r' := by simpa [isLineBreak] using hBreak
    rcases hCases with rfl | rfl
    · rw [hFeed] at hd
      cases hd
    · rw [hReturn] at hd
      cases hd

theorem inline_of_run {p : Char → Bool} (h : LongestRun p pre rest) (hFeed : p '\n' = false)
    (hReturn : p '\r' = false) : ∀ d ∈ pre, isLineBreak d = false :=
  fun d hd => isLineBreak_eq_false hFeed hReturn (h.inside d hd)

theorem punctuators_inline : ∀ p ∈ punctuators, ∀ d ∈ p.toList, isLineBreak d = false := by
  have hAll : ∀ p ∈ punctuators, p.toList.all (fun d => !isLineBreak d) = true := by decide
  simpa only [List.all_eq_true, Bool.not_eq_true'] using hAll

/-- The token is the mark of an interpreter at the start of a text. -/
def IsMark (cur : Cursor) (c : Char) (pre : List Char) : Prop :=
  cur.offset = 0 ∧ c = '#' ∧ pre.head? = some '!'

/-- The kinds of tokens that are written on one line. -/
def isInline : TokenKind → Bool
  | .whitespace | .lineComment | .identifier | .keyword | .number | .punctuator => true
  | _ => false

theorem Reads.inline (h : cur.Reads kind c pre rest) (hMark : ¬cur.IsMark c pre)
    (hKind : isInline kind = true) : ∀ d ∈ c :: pre, isLineBreak d = false := by
  rw [List.forall_mem_cons]
  cases h with
  | shebang hStart hBang hRun => exact absurd ⟨hStart, rfl, hBang⟩ hMark
  | whitespace hSpacing hInline hRun =>
    exact ⟨hInline, inline_of_run hRun (by decide) (by decide)⟩
  | lineComment hSlash hRun =>
    exact ⟨by decide, inline_of_run hRun (by decide) (by decide)⟩
  | number hDigit hRun =>
    refine ⟨?_, inline_of_run hRun (by decide) (by decide)⟩
    rcases hDigit with hDigit | ⟨rfl, -⟩
    · exact isLineBreak_eq_false (by decide) (by decide) hDigit
    · decide
  | word hStart hRun =>
    refine ⟨?_, inline_of_run hRun (by decide) (by decide)⟩
    rcases hStart with hStart | ⟨rfl, -⟩
    · exact isLineBreak_eq_false (by decide) (by decide) hStart
    · decide
  | punctuator hDivision hPoint hLongest =>
    have hAll := punctuators_inline _ (List.mem_of_find?_eq_some hLongest)
    rwa [String.toList_ofList, List.forall_mem_cons] at hAll
  | _ => cases hKind

/-- Only line breaks end with one. -/
theorem Reads.last_inline (h : cur.Reads kind c pre rest) (hMark : ¬cur.IsMark c pre)
    (hKind : kind ≠ .newline) : ∀ d ∈ (c :: pre).getLast?, isLineBreak d = false := by
  intro d hLast
  by_cases hInline : isInline kind = true
  · exact h.inline hMark hInline d (List.mem_of_getLast? hLast)
  have hOther {e : Char} (hEnd : pre.getLast? = some e) (he : isLineBreak e = false) :
      isLineBreak d = false := by
    cases (getLast?_cons_of_some hEnd).symm.trans hLast
    exact he
  cases h with
  | lineFeed => exact absurd rfl hKind
  | returnAndFeed => exact absurd rfl hKind
  | loneReturn hAlone => exact absurd rfl hKind
  | blockComment hBody =>
    have hEnd := (scanBlockComment_eq_length_iff.mp hBody).getLast?
    exact hOther (getLast?_cons_of_some hEnd) (by decide)
  | regex hAllowed hLine hBlock hBody hFlags =>
    have hEnd := (scanRegexBody_eq_length_iff.mp hBody).getLast?
    rename_i body flags
    cases hFlag : flags.getLast? with
    | none =>
      have hSlash : (body ++ flags).getLast? = some '/' := by
        rw [List.getLast?_append, hFlag, hEnd]
        rfl
      exact hOther hSlash (by decide)
    | some e =>
      have hFlagEnd : (body ++ flags).getLast? = some e := by
        rw [List.getLast?_append, hFlag]
        rfl
      exact hOther hFlagEnd (isLineBreak_eq_false (by decide) (by decide)
        (hFlags.inside _ (List.mem_of_getLast? hFlag)))
  | string hQuote hBody =>
    have hEnd := (stringBody_of_scan hBody).getLast?
    refine hOther hEnd ?_
    rcases hQuote with rfl | rfl <;> decide
  | template hBody =>
    have hEnd := ((Template.scanLiteral_eq_length_iff _ _).mp hBody).getLast? rfl
    exact hOther hEnd (by decide)
  | word hStart hRun => split at hInline <;> exact absurd rfl hInline
  | _ => exact absurd rfl hInline

theorem Reads.whole (h : cur.Reads kind c pre rest) (hMark : ¬cur.IsMark c pre)
    (hLast : (c :: pre).getLast? = some '\r') : rest.head? ≠ some '\n' := by
  by_cases hKind : kind = .newline
  · cases h with
    | loneReturn hAlone => exact hAlone
    | lineFeed => cases hLast
    | returnAndFeed => cases hLast
    | word hStart hRun => split at hKind <;> cases hKind
    | _ => cases hKind
  · exact absurd (h.last_inline hMark hKind _ hLast) (by decide)

theorem chars_token (cur : Cursor) (kind : TokenKind) (cs : List Char) :
    (cur.token kind cs).chars = cs := String.toList_ofList

/-- No interpreter is named at the cursor. -/
def Unmarked (cur : Cursor) (cs : List Char) : Prop := cur.offset = 0 → ¬['#', '!'] <+: cs

theorem Unmarked.not_isMark (h : cur.Unmarked (c :: (pre ++ rest))) : ¬cur.IsMark c pre := by
  rintro ⟨hStart, rfl, hBang⟩
  obtain ⟨tail, rfl⟩ := List.head?_eq_some_iff.mp hBang
  exact h hStart (List.prefix_append ['#', '!'] (tail ++ rest))

theorem unmarked_pass (cur : Cursor) (kind : TokenKind) (c : Char) (pre rest : List Char) :
    (cur.pass (cur.token kind (c :: pre))).Unmarked rest := by
  intro hStart
  rw [pass_offset, chars_token, extent_cons] at hStart
  have hPos := c.utf8Size_pos
  omega

end Cursor

/-! ## Positions -/

/-- The token stands at its offset, on its line and in its column. Columns count characters. -/
def Placed (text : List Char) (t : Token) : Prop :=
  ∃ before after, text = before ++ t.chars ++ after ∧ t.start = extent before ∧
    t.line = 1 + lineEnds text before.length ∧
    ∃ s, StartsLine text s before.length ∧ t.column = 1 + (before.length - s)

theorem Cursor.Cuts.placed {cur : Cursor} {cs text before : List Char} {ts : List Token}
    (h : Cuts cur cs ts) (hText : text = before ++ cs) (hOffset : cur.offset = extent before)
    (hAt : cur.At text before.length) (hMark : cur.Unmarked cs) : ∀ t ∈ ts, Placed text t := by
  induction h generalizing before with
  | nil => exact fun t ht => nomatch ht
  | @cons cur kind c pre rest ts hReads hRest ih =>
    have hChars := cur.chars_token kind (c :: pre)
    have hSplit : text = before ++ ((cur.token kind (c :: pre)).chars ++ rest) := by
      rw [hText, hChars]
      rfl
    rw [List.forall_mem_cons]
    constructor
    · obtain ⟨s, hStarts, hColumn⟩ := hAt.column
      exact ⟨before, rest, by rw [hSplit, List.append_assoc], hOffset, hAt.line, s, hStarts, hColumn⟩
    · have hWhole := hReads.whole hMark.not_isMark
      rw [← hChars] at hWhole
      have hNext : (cur.pass (cur.token kind (c :: pre))).offset =
          extent (before ++ (cur.token kind (c :: pre)).chars) := by
        rw [pass_offset, extent_append, hOffset]
      exact ih (by rw [hSplit, List.append_assoc]) hNext (hAt.pass hSplit hWhole)
        (cur.unmarked_pass kind c pre rest)

/-- Tokens stand where they say. A text that starts with the mark of an interpreter is left out:
if its first line ends with a carriage return and a line feed, these are two tokens. -/
theorem tokens_placed (text : String) (ts : List Token) (hMark : ¬['#', '!'] <+: text.toList)
    (h : lex text = .ok ts) : ∀ t ∈ ts, Placed text.toList t := by
  have hAt : ({} : Cursor).At text.toList ([] : List Char).length := Cursor.at_start _
  exact (cuts_of_lex h).placed (List.nil_append _).symm rfl hAt fun _ => hMark

/-- In the last line the name stands behind a character of two bytes. -/
theorem tokens_placed_return :
    let text := "/*é\r\n*/\r'é'b"
    let t : Token := ⟨⟨.identifier, "b", 3⟩, 13, 4⟩
    ¬['#', '!'] <+: text.toList ∧ (∃ ts, lex text = .ok ts ∧ t ∈ ts) ∧ Placed text.toList t := by
  intro text t
  have hMark : ¬['#', '!'] <+: text.toList := by decide
  let ts : List Token :=
    [⟨⟨.blockComment, "/*é\r\n*/", 1⟩, 0, 1⟩, ⟨⟨.newline, "\r", 2⟩, 8, 3⟩,
      ⟨⟨.string, "'é'", 3⟩, 9, 1⟩, t]
  have hLex : lex text = .ok ts := toOption_eq_some_iff.mp (by decide +kernel)
  have hMem : t ∈ ts := by simp [ts]
  exact ⟨hMark, ⟨ts, hLex, hMem⟩, tokens_placed text ts hMark hLex t hMem⟩

end RuleScout
