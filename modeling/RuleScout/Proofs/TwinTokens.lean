import Mathlib.Data.List.Find
import Mathlib.Data.List.Forall2
import RuleScout.Proofs.WithReturns

/-!
# Tokens of a text with returns

Two cursors are twins when they are at the same line and column and expect the same. From twin
cursors, a text and the text with returns are cut into tokens one by one that are twins as well. A
string or a regular expression that reaches over the end of a line has no twin.
-/

set_option autoImplicit false

namespace RuleScout

open Text Literal

namespace Cursor

/-- The cursors are at the same place and expect the same. -/
structure Twin (cur cur' : Cursor) : Prop where
  line : cur'.line = cur.line
  column : cur'.column = cur.column
  start : cur'.offset = 0 ↔ cur.offset = 0
  allowed : regexAllowed cur'.previous = regexAllowed cur.previous

theorem Twin.refl (cur : Cursor) : cur.Twin cur := ⟨rfl, rfl, Iff.rfl, rfl⟩

theorem Twin.symm {cur cur' : Cursor} (h : cur.Twin cur') : cur'.Twin cur :=
  ⟨h.line.symm, h.column.symm, h.start.symm, h.allowed.symm⟩

/-- The texts start with the same characters, up to the end of the line. -/
def Ahead (rest rest' : List Char) : Prop :=
  ∀ q : List Char, (∀ d ∈ q, isLineBreak d = false) → (q <+: rest' ↔ q <+: rest)

variable {cur cur' : Cursor} {kind : TokenKind} {c : Char} {cs pre rest rest' : List Char}

namespace Ahead

theorem symm (h : Ahead rest rest') : Ahead rest' rest := fun q hq => (h q hq).symm

theorem append (h : Ahead rest rest') (pre : List Char) : Ahead (pre ++ rest) (pre ++ rest') := by
  induction pre with
  | nil => exact h
  | cons c pre ih =>
    intro q hq
    cases q with
    | nil => simp
    | cons d q =>
      rw [List.forall_mem_cons] at hq
      rw [List.cons_append, List.cons_append, List.cons_prefix_cons, List.cons_prefix_cons,
        ih q hq.2]

theorem withReturns (rest : List Char) : Ahead rest (withReturns rest) := by
  induction rest with
  | nil => exact fun _ _ => Iff.rfl
  | cons c rest ih =>
    intro q hq
    cases q with
    | nil => simp
    | cons d q =>
      rw [List.forall_mem_cons] at hq
      by_cases hc : c = '\n'
      · subst hc
        have hFeed : d ≠ '\n' := ne_of_apply_ne isLineBreak (by rw [hq.1]; decide)
        have hReturn : d ≠ '\r' := ne_of_apply_ne isLineBreak (by rw [hq.1]; decide)
        simp [List.cons_prefix_cons, hFeed, hReturn]
      · rw [withReturns_cons hc, List.cons_prefix_cons, List.cons_prefix_cons, ih q hq.2]

theorem head? (h : Ahead rest rest') {d : Char} (hd : isLineBreak d = false) :
    rest'.head? = some d ↔ rest.head? = some d := by
  have hOne := h [d] (by simpa using hd)
  rwa [List.singleton_prefix_iff_head?_eq_some, List.singleton_prefix_iff_head?_eq_some] at hOne

theorem run (h : Ahead rest rest') {p : Char → Bool} (hFeed : p '\n' = false)
    (hReturn : p '\r' = false) (hRun : LongestRun p pre rest) : LongestRun p pre rest' where
  inside := hRun.inside
  stops d hd := by
    cases hp : p d with
    | false => rfl
    | true =>
      rw [hRun.stops d ((h.head? (isLineBreak_eq_false hFeed hReturn hp)).mp hd)] at hp
      cases hp

theorem any_head? (h : Ahead rest rest') {p : Char → Bool} (hFeed : p '\n' = false)
    (hReturn : p '\r' = false) (hAny : rest.head?.any p = false) : rest'.head?.any p = false := by
  rw [← Bool.not_eq_true, Option.any_eq_true] at hAny ⊢
  rintro ⟨d, hd, hp⟩
  exact hAny ⟨d, (h.head? (isLineBreak_eq_false hFeed hReturn hp)).mp hd, hp⟩

end Ahead

/-- What stands behind a token matters up to the end of the line only. -/
theorem Reads.ahead (h : cur.Reads kind c pre rest) (hTwin : cur.Twin cur')
    (hMark : ¬cur.IsMark c pre) (hc : isLineBreak c = false) (hAhead : Ahead rest rest') :
    cur'.Reads kind c pre rest' := by
  cases h with
  | shebang hStart hBang hRun => exact absurd ⟨hStart, rfl, hBang⟩ hMark
  | lineFeed => exact absurd hc (by decide)
  | returnAndFeed => exact absurd hc (by decide)
  | loneReturn hAlone => exact absurd hc (by decide)
  | whitespace hSpacing hInline hRun =>
    exact .whitespace hSpacing hInline (hAhead.run (by decide) (by decide) hRun)
  | lineComment hSlash hRun =>
    exact .lineComment hSlash (hAhead.run (by decide) (by decide) hRun)
  | blockComment hBody => exact .blockComment hBody
  | regex hAllowed hLine hBlock hBody hFlags =>
    rw [← hTwin.allowed] at hAllowed
    exact .regex hAllowed hLine hBlock hBody (hAhead.run (by decide) (by decide) hFlags)
  | string hQuote hBody => exact .string hQuote hBody
  | template hBody =>
    rw [Template.scanLiteral_eq_length_iff] at hBody
    exact .template ((Template.scanLiteral_eq_length_iff _ _).mpr hBody)
  | number hDigit hRun => exact .number hDigit (hAhead.run (by decide) (by decide) hRun)
  | word hStart hRun => exact .word hStart (hAhead.run (by decide) (by decide) hRun)
  | punctuator hDivision hPoint hLongest =>
    have hBehind := hAhead.append pre
    refine .punctuator ?_ ?_ ?_
    · intro hSlash
      obtain ⟨hLine, hBlock, hAllowed⟩ := hDivision hSlash
      rw [← hTwin.allowed] at hAllowed
      exact ⟨fun hNext => hLine ((hBehind.head? (by decide)).mp hNext),
        fun hNext => hBlock ((hBehind.head? (by decide)).mp hNext), hAllowed⟩
    · exact fun hDot => hBehind.any_head? (by decide) (by decide) (hPoint hDot)
    · rw [← hLongest]
      apply List.find?_congr
      intro p hp
      rw [Bool.eq_iff_iff, List.isPrefixOf_iff_prefix, List.isPrefixOf_iff_prefix]
      exact hAhead.append (c :: pre) _ (punctuators_inline p hp)

/-! ## One token -/

/-- With returns, a string or a regular expression cannot reach over the end of a line. -/
theorem Reads.feed_not_mem (h : cur.Reads kind c (withReturns pre) rest)
    (hKind : kind = .string ∨ kind = .regex) : '\n' ∉ pre := by
  intro hFeed
  have hTerminator := terminator_infix_withReturns hFeed
  generalize hPre : withReturns pre = taken at h hTerminator
  cases h with
  | string hQuote hBody =>
    exact (stringBody_of_scan hBody).not_terminator hQuote hTerminator
  | @regex body flags rest hAllowed hLine hBlock hBody hFlags =>
    have hRegex := scanRegexBody_eq_length_iff.mp hBody
    obtain ⟨us, vs, rfl, rfl, rfl⟩ := withReturns_split hPre fun hLast => by
      rw [hRegex.getLast?] at hLast
      cases hLast
    rcases List.mem_append.mp hFeed with hBefore | hBehind
    · exact hRegex.not_terminator (terminator_infix_withReturns hBefore)
    · have hFlag := hFlags.inside '\n' ((terminator_infix_withReturns hBehind).subset (by simp))
      exact absurd hFlag (by decide)
  | word hStart hRun => split at hKind <;> exact absurd hKind (by decide)
  | _ => exact absurd hKind (by decide)

/-- The tokens that may reach over the end of a line without a backslash before it. -/
inductive Multiline : TokenKind → Char → List Char → Prop where
  | blockComment {body : List Char} (hBody : CommentBody body) :
      Multiline .blockComment '/' ('*' :: body)
  | template {pre : List Char} (hBody : Template.Spent [.literal 0] pre) :
      Multiline .template '\x60' pre

namespace Multiline

theorem reads (h : Multiline kind c pre) (cur : Cursor) (rest : List Char) :
    cur.Reads kind c pre rest := by
  cases h with
  | blockComment hBody => exact .blockComment (scanBlockComment_eq_length_iff.mpr hBody)
  | template hBody => exact .template ((Template.scanLiteral_eq_length_iff _ _).mpr hBody)

theorem of_reads (h : cur.Reads kind c pre rest) (hMark : ¬cur.IsMark c pre)
    (hc : isLineBreak c = false) {d : Char} (hd : d ∈ pre) (hBreak : isLineBreak d = true)
    (hKind : ¬(kind = .string ∨ kind = .regex)) : Multiline kind c pre := by
  by_cases hInline : isInline kind = true
  · rw [h.inline hMark hInline d (List.mem_cons_of_mem _ hd)] at hBreak
    cases hBreak
  cases h with
  | blockComment hBody => exact .blockComment (scanBlockComment_eq_length_iff.mp hBody)
  | template hBody => exact .template ((Template.scanLiteral_eq_length_iff _ _).mp hBody)
  | lineFeed | loneReturn => cases hd
  | returnAndFeed => exact absurd hc (by decide)
  | string => exact absurd (.inl rfl) hKind
  | regex => exact absurd (.inr rfl) hKind
  | word hStart hRun => split at hInline <;> exact absurd rfl hInline
  | _ => exact absurd rfl hInline

theorem withReturns_iff : Multiline kind c (withReturns pre) ↔ Multiline kind c pre := by
  constructor
  · intro h
    generalize hPre : withReturns pre = taken at h
    cases h with
    | blockComment hBody =>
      rcases withReturns_eq_cons hPre with ⟨tail, -, hStar, -⟩ | ⟨tail, rfl, -, rfl⟩
      · cases hStar
      · exact .blockComment (commentBody_withReturns.mp hBody)
    | template hBody =>
      subst hPre
      exact .template ((Template.spent_withReturns (by simp [Template.Frame.Proper])).mp hBody)
  · intro h
    cases h with
    | blockComment hBody =>
      rw [withReturns_cons (by decide)]
      exact .blockComment (commentBody_withReturns.mpr hBody)
    | template hBody =>
      exact .template ((Template.spent_withReturns (by simp [Template.Frame.Proper])).mpr hBody)

end Multiline

theorem reads_withReturns_iff (hTwin : cur.Twin cur') (hc : isLineBreak c = false)
    (hMark : ¬cur.IsMark c pre) :
    cur'.Reads kind c (withReturns pre) (withReturns rest) ↔
      cur.Reads kind c pre rest ∧ (kind = .string ∨ kind = .regex → '\n' ∉ pre) := by
  have hMark' : ¬cur'.IsMark c (withReturns pre) := by
    rintro ⟨hStart, hHash, hBang⟩
    exact hMark ⟨hTwin.start.mp hStart, hHash, (withReturns_head? (by decide) (by decide)).mp hBang⟩
  by_cases hFeed : '\n' ∈ pre
  · -- what reaches over the end of a line is a comment or a template, with returns and without
    have hReturn : '\r' ∈ withReturns pre := (terminator_infix_withReturns hFeed).subset (by simp)
    constructor
    · intro h
      have hKind : ¬(kind = .string ∨ kind = .regex) := fun hKind => h.feed_not_mem hKind hFeed
      have hMultiline := Multiline.of_reads h hMark' hc hReturn rfl hKind
      exact ⟨(Multiline.withReturns_iff.mp hMultiline).reads cur rest, fun hOwn => absurd hOwn hKind⟩
    · rintro ⟨h, hUnbroken⟩
      have hMultiline := Multiline.of_reads h hMark hc hFeed rfl fun hKind => hUnbroken hKind hFeed
      exact (Multiline.withReturns_iff.mpr hMultiline).reads cur' (withReturns rest)
  · rw [withReturns_eq_self hFeed] at hMark' ⊢
    constructor
    · exact fun h => ⟨h.ahead hTwin.symm hMark' hc (Ahead.withReturns rest).symm, fun _ => hFeed⟩
    · exact fun h => h.1.ahead hTwin hMark hc (Ahead.withReturns rest)

end Cursor

/-! ## The cursor behind a token -/

/-- The tokens are of the same kind, stand at the same place and have the same text up to the
returns. What is written on one line is the same text. -/
structure Token.Twin (t t' : Token) : Prop where
  kind : t'.kind = t.kind
  line : t'.line = t.line
  column : t'.column = t.column
  chars : t'.chars = withReturns t.chars
  inline : Cursor.isInline t.kind = true → '\n' ∉ t.chars

/-- No string and no regular expression that reaches over the end of a line. -/
def Token.Unbroken (t : Token) : Prop := t.kind = .string ∨ t.kind = .regex → '\n' ∉ t.chars

instance (t : Token) : Decidable t.Unbroken :=
  inferInstanceAs (Decidable (t.kind = .string ∨ t.kind = .regex → '\n' ∉ t.chars))

namespace Token.Twin

variable {t t' : Token}

theorem text (h : t.Twin t') (hKind : Cursor.isInline t.kind = true) : t'.text = t.text := by
  apply String.toList_inj.mp
  exact h.chars.trans (withReturns_eq_self (h.inline hKind))

theorem isTrivia (h : t.Twin t') : t'.isTrivia = t.isTrivia := by
  rw [Lexeme.isTrivia, Lexeme.isTrivia, h.kind]

theorem regexAllowed (h : t.Twin t') : regexAllowed (some t') = regexAllowed (some t) := by
  simp only [RuleScout.regexAllowed, h.kind]
  split
  · rename_i hKind
    rw [h.text (by rw [hKind]; rfl)]
  · rename_i hKind
    rw [h.text (by rw [hKind]; rfl)]
  · rfl

end Token.Twin

namespace Cursor

variable {cur cur' : Cursor} {kind : TokenKind} {c : Char} {cs pre rest : List Char}
  {t t' : Token} {ts ts' : List Token}

theorem Twin.move (h : cur.Twin cur') {offset offset' line line' column column' : Nat}
    (hOffset : 0 < offset) (hOffset' : 0 < offset') (hLine : line' = line)
    (hColumn : column' = column) :
    Twin { cur with offset, line, column } ⟨offset', line', column', cur'.previous⟩ where
  line := hLine
  column := hColumn
  start := by simp only; omega
  allowed := h.allowed

theorem Twin.advance (h : cur.Twin cur') (hReturn : '\r' ∉ cs) :
    (cur.advance cs).Twin (cur'.advance (withReturns cs)) := by
  induction cs generalizing cur cur' with
  | nil => exact h
  | cons c cs ih =>
    rw [List.mem_cons, not_or] at hReturn
    have hPos (offset : Nat) (d : Char) : 0 < offset + d.utf8Size :=
      Nat.add_pos_right offset d.utf8Size_pos
    by_cases hc : c = '\n'
    · -- the return makes a column, and the line feed forgets it
      subst hc
      exact ih (h.move (hPos _ _) (hPos _ _) (congrArg (· + 1) h.line) rfl) hReturn.2
    · rw [withReturns_cons hc, Cursor.advance, Cursor.advance]
      simp only [hc, Ne.symm hReturn.1]
      exact ih (h.move (hPos _ _) (hPos _ _) h.line (congrArg (· + 1) h.column)) hReturn.2

theorem Twin.pass (h : cur.Twin cur') (ht : t.Twin t') (hReturn : '\r' ∉ t.chars) :
    (cur.pass t).Twin (cur'.pass t') := by
  have hNext := h.advance hReturn
  rw [← ht.chars] at hNext
  rw [Cursor.pass, Cursor.pass, ht.isTrivia]
  split
  · exact hNext
  · exact ⟨hNext.line, hNext.column, hNext.start, ht.regexAllowed⟩

/-! ## All tokens -/

theorem Reads.eq_of_feed (h : cur.Reads kind '\n' pre rest) : kind = .newline ∧ pre = [] := by
  have hLexeme := (lexeme_of_reads h).symm.trans lexeme_lineFeed
  injection hLexeme with hLexeme
  exact ⟨congrArg Prod.fst hLexeme, List.length_eq_zero_iff.mp (congrArg Prod.snd hLexeme)⟩

theorem Reads.eq_of_terminator (h : cur.Reads kind '\r' ('\n' :: pre) rest) :
    kind = .newline ∧ pre = [] := by
  have hLexeme := (lexeme_of_reads h).symm.trans lexeme_return
  injection hLexeme with hLexeme
  have hLength := congrArg Prod.snd hLexeme
  exact ⟨congrArg Prod.fst hLexeme, List.length_eq_zero_iff.mp (Nat.succ.inj hLength)⟩

/-- A token reads alike with and without returns, unless it is a string or a regular expression
that reaches over the end of a line. -/
theorem reads_twin_iff (hTwin : cur.Twin cur') (hc : c ≠ '\r') (hMark : ¬cur.IsMark c pre)
    {c' : Char} {pre' : List Char} (hChars : c' :: pre' = withReturns (c :: pre)) :
    cur'.Reads kind c' pre' (withReturns rest) ↔
      cur.Reads kind c pre rest ∧ (kind = .string ∨ kind = .regex → '\n' ∉ c :: pre) := by
  by_cases hFeed : c = '\n'
  · subst hFeed
    obtain ⟨rfl, rfl⟩ := List.cons.inj hChars
    constructor
    · intro h
      obtain ⟨rfl, hNil⟩ := h.eq_of_terminator
      rw [withReturns_eq_nil_iff.mp hNil]
      exact ⟨.lineFeed, fun hKind => absurd hKind (by decide)⟩
    · rintro ⟨h, -⟩
      obtain ⟨rfl, rfl⟩ := h.eq_of_feed
      exact .returnAndFeed
  · rw [withReturns_cons hFeed] at hChars
    obtain ⟨rfl, rfl⟩ := List.cons.inj hChars
    rw [reads_withReturns_iff hTwin (by simp [isLineBreak, hFeed, hc]) hMark, List.mem_cons,
      or_iff_right (Ne.symm hFeed)]

theorem Reads.token_twin (h : cur.Reads kind c pre rest) (hTwin : cur.Twin cur')
    (hMark : ¬cur.IsMark c pre) {cs' : List Char} (hChars : cs' = withReturns (c :: pre)) :
    (cur.token kind (c :: pre)).Twin (cur'.token kind cs') where
  kind := rfl
  line := hTwin.line
  column := hTwin.column
  chars := by rw [chars_token, chars_token, hChars]
  inline hKind hFeed := by
    rw [chars_token] at hFeed
    exact absurd (h.inline hMark hKind _ hFeed) (by decide)

theorem Unmarked.twin (h : cur.Unmarked cs) (hTwin : cur.Twin cur') :
    cur'.Unmarked (withReturns cs) := by
  intro hStart hPrefix
  exact h (hTwin.start.mp hStart) ((Ahead.withReturns cs _ (by simp [isLineBreak])).mp hPrefix)

theorem Cuts.withReturns (h : Cuts cur cs ts) (hTwin : cur.Twin cur') (hReturn : '\r' ∉ cs)
    (hMark : cur.Unmarked cs) (hUnbroken : ∀ t ∈ ts, t.Unbroken) :
    ∃ ts', Cuts cur' (withReturns cs) ts' ∧ List.Forall₂ Token.Twin ts ts' := by
  induction h generalizing cur' with
  | nil => exact ⟨[], .nil, .nil⟩
  | @cons cur kind c pre rest ts hReads hRest ih =>
    rw [List.forall_mem_cons] at hUnbroken
    rw [← List.cons_append, List.mem_append, not_or] at hReturn
    obtain ⟨c', pre', hChars⟩ := List.exists_cons_of_ne_nil
      (mt withReturns_eq_nil_iff.mp (List.cons_ne_nil c pre))
    have hOwn : kind = .string ∨ kind = .regex → '\n' ∉ c :: pre := by
      intro hKind
      rw [← cur.chars_token kind (c :: pre)]
      exact hUnbroken.1 hKind
    have hReads' := (reads_twin_iff hTwin (List.ne_of_not_mem_cons hReturn.1).symm
      hMark.not_isMark hChars.symm).mpr ⟨hReads, hOwn⟩
    have hToken := hReads.token_twin hTwin hMark.not_isMark hChars.symm
    obtain ⟨ts', hCuts, hTwins⟩ := ih (hTwin.pass hToken (by rw [chars_token]; exact hReturn.1))
      hReturn.2 (cur.unmarked_pass kind c pre rest) hUnbroken.2
    refine ⟨_, ?_, .cons hToken hTwins⟩
    rw [← List.cons_append, withReturns_append, hChars]
    exact .cons hReads' hCuts

theorem Cuts.of_withReturns {cs' : List Char} (h : Cuts cur' cs' ts')
    (hText : Text.withReturns cs = cs') (hTwin : cur.Twin cur') (hReturn : '\r' ∉ cs)
    (hMark : cur.Unmarked cs) :
    ∃ ts, Cuts cur cs ts ∧ List.Forall₂ Token.Twin ts ts' ∧ ∀ t ∈ ts, t.Unbroken := by
  induction h generalizing cur cs with
  | nil =>
    rw [withReturns_eq_nil_iff.mp hText]
    exact ⟨[], .nil, .nil, fun t ht => nomatch ht⟩
  | @cons cur' kind c' pre' rest' ts' hReads' hRest ih =>
    have hMark' := hText ▸ hMark.twin hTwin
    -- a token never ends between a return and its line feed, so it is a part with returns itself
    rw [← List.cons_append] at hText
    obtain ⟨us, rest, rfl, hChars, rfl⟩ :=
      withReturns_split hText (hReads'.whole hMark'.not_isMark)
    cases us with
    | nil => cases hChars
    | cons c pre =>
      rw [List.mem_append, not_or] at hReturn
      obtain ⟨hReads, hOwn⟩ := (reads_twin_iff hTwin (List.ne_of_not_mem_cons hReturn.1).symm
        hMark.not_isMark hChars).mp hReads'
      have hToken := hReads.token_twin hTwin hMark.not_isMark hChars
      obtain ⟨ts, hCuts, hTwins, hUnbroken⟩ := ih rfl
        (hTwin.pass hToken (by rw [chars_token]; exact hReturn.1)) hReturn.2
        (cur.unmarked_pass kind c pre rest)
      refine ⟨_, .cons hReads hCuts, .cons hToken hTwins, ?_⟩
      rw [List.forall_mem_cons]
      refine ⟨?_, hUnbroken⟩
      intro hKind
      rw [chars_token]
      exact hOwn hKind

end Cursor

end RuleScout
