import RuleScout.Proofs.FindingPlaces
import RuleScout.Proofs.TokenOrder

/-!
# Trailing spaces line by line

The rule walks over the tokens: it looks at white space in front of a line break and at the parts
between the line feeds of a comment. Seen from the lines, this is one finding for every line that
ends with white space of its own or with spaces and tabs of a comment, at the first of these.
-/

set_option autoImplicit false

namespace RuleScout.Layout

open Text Line

/-- White space that may not end a line: all of a token of white space, spaces and tabs of a
comment. -/
def isLoose (t : Token) (c : Char) : Bool :=
  t.kind = .whitespace || (t.kind.isComment && isIndent c)

/-- The token between `us` and `vs` has `c` behind `front`, as the last character of a line. -/
structure EndsLine (u : SourceUnit) (us : List Token) (t : Token) (vs : List Token)
    (front : List Char) (c : Char) (back : List Char) : Prop where
  tokens : u.tokens.toList = us ++ t :: vs
  chars : t.chars = front ++ c :: back
  inline : c ≠ '\n'
  last : ∀ d ∈ (back ++ vs.flatMap (·.chars)).head?, d = '\n'

/-- The token between `us` and `vs` has `run` behind `kept`: the longest run of loose characters at
the end of a line. -/
structure Trails (u : SourceUnit) (us : List Token) (t : Token) (vs : List Token)
    (kept run back : List Char) : Prop where
  tokens : u.tokens.toList = us ++ t :: vs
  chars : t.chars = kept ++ (run ++ back)
  nonempty : run ≠ []
  inline : '\n' ∉ run
  loose : ∀ c ∈ run, isLoose t c = true
  longest : ∀ c ∈ kept.getLast?, isLoose t c = false
  last : ∀ d ∈ (back ++ vs.flatMap (·.chars)).head?, d = '\n'

/-- The number of the line that goes on behind a text. -/
def lineBehind (xs : List Char) : Nat := xs.count '\n' + 1

/-- The finding at the place behind a text. -/
def foundBehind (xs : List Char) : Violation := trailing (lineBehind xs) ((lastPart xs).length + 1)

/-- The line is made of one token of white space. -/
def IsBlankLine (u : SourceUnit) (k : Nat) : Prop :=
  ∃ us t vs, u.tokens.toList = us ++ t :: vs ∧ t.kind = .whitespace ∧
    lastPart (us.flatMap (·.chars)) = [] ∧ (∀ d ∈ (vs.flatMap (·.chars)).head?, d = '\n') ∧
    lineBehind (us.flatMap (·.chars)) = k

/-- The last character of the line belongs to a comment. -/
def EndsInComment (u : SourceUnit) (k : Nat) : Prop :=
  ∃ us t vs front c back, EndsLine u us t vs front c back ∧ t.kind.isComment = true ∧
    lineBehind (us.flatMap (·.chars) ++ front) = k

variable {u : SourceUnit} {path text : String} {us vs : List Token} {t : Token}
  {xs cs part kept run back front : List Char} {c : Char} {v : Violation}

/-! ## Runs at the end of a text -/

theorem exists_runAtEnd (p : Char → Bool) (cs : List Char) :
    ∃ kept run, cs = kept ++ run ∧ (∀ c ∈ run, p c = true) ∧ ∀ c ∈ kept.getLast?, p c = false := by
  obtain ⟨run, kept, hSplit, hRun⟩ := Literal.exists_longestRun p cs.reverse
  refine ⟨kept.reverse, run.reverse, ?_, ?_, ?_⟩
  · rw [← List.reverse_append, ← hSplit, List.reverse_reverse]
  · simpa using hRun.inside
  · simpa using hRun.stops

theorem dropWhile_runAtEnd {p : Char → Bool} (hRun : ∀ c ∈ run, p c = true)
    (hKept : ∀ c ∈ kept.getLast?, p c = false) :
    ((kept ++ run).reverse.dropWhile p).reverse = kept := by
  have hStop : kept.reverse.dropWhile p = kept.reverse := by
    rw [← List.head?_reverse] at hKept
    cases hHead : kept.reverse with
    | nil => rfl
    | cons c cs =>
      rw [hHead] at hKept
      exact List.dropWhile_cons_of_neg (by simp [hKept c rfl])
  rw [List.reverse_append, List.dropWhile_append_of_pos (by simpa using hRun), hStop,
    List.reverse_reverse]

/-! ## The parts of a comment -/

/-- In a text, `run` is made of the spaces and tabs at the end of a line. -/
structure EndsPart (cs kept run back : List Char) : Prop where
  chars : cs = kept ++ (run ++ back)
  nonempty : run ≠ []
  loose : ∀ c ∈ run, isIndent c = true
  longest : ∀ c ∈ kept.getLast?, isIndent c = false
  last : ∀ d ∈ back.head?, d = '\n'

theorem feed_not_mem_indent (h : ∀ c ∈ run, isIndent c = true) : '\n' ∉ run := by
  intro hMem
  exact absurd (h _ hMem) (by decide)

theorem EndsPart.back_eq_nil (h : EndsPart cs kept run back) (hInline : '\n' ∉ cs) : back = [] := by
  cases back with
  | nil => rfl
  | cons d back =>
    obtain rfl := h.last d rfl
    exact absurd (by rw [h.chars]; simp) hInline

/-- A run at the end of a line of two parts is at the end of the first one, or behind it. -/
theorem endsPart_append_feed_iff (hInline : '\n' ∉ part) :
    EndsPart (part ++ '\n' :: cs) kept run back ↔
      (EndsPart part kept run [] ∧ back = '\n' :: cs) ∨
        ∃ later, kept = part ++ '\n' :: later ∧ EndsPart cs later run back := by
  constructor
  · intro h
    have hRun := feed_not_mem_indent h.loose
    rcases List.append_eq_append_iff.mp h.chars with ⟨behind, rfl, hRest⟩ | ⟨rest, rfl, hRest⟩
    · right
      cases behind with
      | nil =>
        -- the run would begin with the line feed
        obtain ⟨d, run, rfl⟩ := List.exists_cons_of_ne_nil h.nonempty
        cases hRest
        exact absurd List.mem_cons_self hRun
      | cons d later =>
        cases hRest
        refine ⟨later, rfl, rfl, h.nonempty, h.loose, fun c hc => ?_, h.last⟩
        refine h.longest c ?_
        rw [List.getLast?_append_cons]
        exact getLast?_cons_of_some hc
    · left
      rw [List.mem_append, not_or] at hInline
      rcases List.append_eq_append_iff.mp hRest with ⟨behind, rfl, hBack⟩ | ⟨more, rfl, hBack⟩
      · cases behind with
        | nil =>
          cases hBack
          exact ⟨⟨by simp, h.nonempty, h.loose, h.longest, by simp⟩, rfl⟩
        | cons d behind =>
          obtain rfl := h.last d (by rw [hBack]; rfl)
          exact absurd (by simp) hInline.2
      · cases more with
        | nil =>
          exact ⟨⟨by simp, h.nonempty, h.loose, h.longest, by simp⟩, hBack.symm⟩
        | cons d more =>
          cases hBack
          exact absurd (by simp) hRun
  · rintro (⟨h, rfl⟩ | ⟨later, rfl, h⟩)
    · exact ⟨by simp [h.chars], h.nonempty, h.loose, h.longest, by simp⟩
    · refine ⟨by simp [h.chars], h.nonempty, h.loose, fun c hc => ?_, h.last⟩
      rw [List.getLast?_append_cons] at hc
      cases later with
      | nil =>
        cases hc
        decide
      | cons d later => exact h.longest c hc

theorem mem_inComment_iff {line column : Nat} {parts : List (List Char)} (hReturn : '\r' ∉ part) :
    v ∈ inComment line column (part :: parts) ↔
      (∃ kept run, EndsPart part kept run [] ∧ v = trailing line (column + kept.length)) ∨
        v ∈ inComment (line + 1) 1 parts := by
  obtain ⟨kept, run, rfl, hRun, hKept⟩ := exists_runAtEnd isIndent part
  have hOwn {kept' run' : List Char} (h : EndsPart (kept ++ run) kept' run' []) : kept' = kept := by
    have hSplit := h.chars
    rw [List.append_nil] at hSplit
    rw [← dropWhile_runAtEnd h.loose h.longest, ← hSplit, dropWhile_runAtEnd hRun hKept]
  rw [inComment, dropReturn_eq_self hReturn, dropWhile_runAtEnd hRun hKept]
  by_cases hNone : run = []
  · subst hNone
    rw [if_pos (by rw [List.append_nil])]
    refine (or_iff_right ?_).symm
    rintro ⟨kept', run', h, -⟩
    have hSplit := h.chars
    rw [hOwn h] at hSplit
    exact h.nonempty (by simpa using hSplit)
  · have hLength : run.length ≠ 0 := fun h => hNone (List.length_eq_zero_iff.mp h)
    rw [if_neg (by rw [List.length_append]; omega), List.mem_cons]
    refine or_congr_left ⟨?_, ?_⟩
    · rintro rfl
      exact ⟨kept, run, ⟨by simp, hNone, hRun, hKept, by simp⟩, rfl⟩
    · rintro ⟨kept', run', h, rfl⟩
      rw [hOwn h]

theorem mem_inComment_split_iff {xs cs : List Char} (hReturn : '\r' ∉ cs) :
    v ∈ inComment (lineBehind xs) ((lastPart xs).length + 1) (split cs) ↔
      ∃ kept run back, EndsPart cs kept run back ∧ v = foundBehind (xs ++ kept) := by
  have hPlace {part kept run : List Char} (hInline : '\n' ∉ part) (h : EndsPart part kept run []) :
      foundBehind (xs ++ kept) =
        trailing (lineBehind xs) ((lastPart xs).length + 1 + kept.length) := by
    have hKept : '\n' ∉ kept := fun hMem => hInline (h.chars ▸ List.mem_append_left _ hMem)
    rw [foundBehind, lineBehind, lastPart_append hKept, List.count_append,
      List.count_eq_zero.mpr hKept, List.length_append, Nat.add_zero, Nat.add_right_comm, lineBehind]
  -- the first line is looked at behind `xs`, what follows behind `xs` and that line
  by_cases hFeed : '\n' ∈ cs
  · obtain ⟨part, rest, rfl, hInline⟩ := List.eq_append_cons_of_mem hFeed
    have hShorter : rest.length < (part ++ '\n' :: rest).length := by
      rw [List.length_append, List.length_cons]
      omega
    have hPart : '\r' ∉ part := fun hMem => hReturn (List.mem_append_left _ hMem)
    have hRest : '\r' ∉ rest := fun hMem => hReturn (by simp [hMem])
    have hNext : lineBehind xs + 1 = lineBehind (xs ++ part ++ ['\n']) := by
      simp [lineBehind, List.count_eq_zero.mpr hInline]
    have hColumn : 1 = (lastPart (xs ++ part ++ ['\n'])).length + 1 := by
      rw [lastPart_concat_feed]
      rfl
    rw [split_append_feed hInline, mem_inComment_iff hPart, hNext]
    conv_lhs =>
      rhs
      rw [hColumn]
    rw [mem_inComment_split_iff hRest]
    simp only [endsPart_append_feed_iff hInline]
    constructor
    · rintro (⟨kept, run, h, rfl⟩ | ⟨kept, run, back, h, rfl⟩)
      · exact ⟨kept, run, _, .inl ⟨h, rfl⟩, (hPlace hInline h).symm⟩
      · exact ⟨_, run, back, .inr ⟨kept, rfl, h⟩, by simp⟩
    · rintro ⟨kept, run, back, ⟨h, rfl⟩ | ⟨later, rfl, h⟩, rfl⟩
      · exact .inl ⟨kept, run, h, hPlace hInline h⟩
      · exact .inr ⟨later, run, back, h, by simp⟩
  · rw [split_eq_self hFeed, mem_inComment_iff hReturn]
    constructor
    · rintro (⟨kept, run, h, rfl⟩ | hNone)
      · exact ⟨kept, run, [], h, (hPlace hFeed h).symm⟩
      · cases hNone
    · rintro ⟨kept, run, back, h, rfl⟩
      obtain rfl := h.back_eq_nil hFeed
      exact .inl ⟨kept, run, h, hPlace hFeed h⟩
termination_by cs.length

/-! ## The ends of lines in a text -/

theorem feed_mem_between {xs ys ys' : List Char} {c c' : Char}
    (hText : c :: ys = xs ++ c' :: ys') (hInline : c' ≠ '\n') (hLast : ∀ d ∈ ys.head?, d = '\n') :
    xs = [] ∨ '\n' ∈ xs := by
  rcases xs with - | ⟨x, xs⟩
  · exact .inl rfl
  · cases hText
    right
    cases xs with
    | nil => exact absurd (hLast c' rfl) hInline
    | cons d xs =>
      obtain rfl := hLast d rfl
      simp

theorem EndsLine.text_eq (h : EndsLine u us t vs front c back) :
    u.tokens.toList.flatMap (·.chars) =
      (us.flatMap (·.chars) ++ front) ++ c :: (back ++ vs.flatMap (·.chars)) := by
  rw [h.tokens, List.flatMap_append, List.flatMap_cons, h.chars]
  simp only [List.append_assoc, List.cons_append]

/-- A token that ends a line stands on an earlier line than the next one that does. -/
theorem EndsLine.line_lt {mid vs' : List Token} {t' : Token} {front' back' : List Char} {c' : Char}
    (h : EndsLine u us t vs front c back)
    (h' : EndsLine u (us ++ t :: mid) t' vs' front' c' back') :
    lineBehind (us.flatMap (·.chars) ++ front) <
      lineBehind ((us ++ t :: mid).flatMap (·.chars) ++ front') := by
  have hPrefix : (us ++ t :: mid).flatMap (·.chars) ++ front' =
      (us.flatMap (·.chars) ++ front) ++ (c :: (back ++ mid.flatMap (·.chars)) ++ front') := by
    rw [List.flatMap_append, List.flatMap_cons, h.chars]
    simp only [List.append_assoc, List.cons_append]
  have hText := h.text_eq.symm.trans h'.text_eq
  rw [hPrefix, List.append_assoc (us.flatMap (·.chars) ++ front), List.append_cancel_left_eq] at hText
  -- the second character is no line feed, so the one that ends the first line is before it
  have hFeed := (feed_mem_between hText h'.inline h.last).resolve_left (by simp)
  have hCount := List.count_pos_iff.mpr hFeed
  rw [hPrefix]
  simp only [lineBehind, List.count_append] at hCount ⊢
  omega

theorem EndsLine.tokens_eq {us' vs' : List Token} {t' : Token} {front' back' : List Char} {c' : Char}
    (h : EndsLine u us t vs front c back) (h' : EndsLine u us' t' vs' front' c' back')
    (hLine : lineBehind (us.flatMap (·.chars) ++ front) =
      lineBehind (us'.flatMap (·.chars) ++ front')) : us = us' ∧ t = t' := by
  rcases List.append_eq_append_iff.mp (h.tokens.symm.trans h'.tokens) with
    ⟨mid, rfl, hRest⟩ | ⟨mid, rfl, hRest⟩
  · cases mid with
    | nil => exact ⟨(List.append_nil us).symm, (List.cons.inj hRest).1⟩
    | cons s mid =>
      cases hRest
      exact absurd hLine (Nat.ne_of_lt (h.line_lt h'))
  · cases mid with
    | nil => exact ⟨List.append_nil us', (List.cons.inj hRest).1.symm⟩
    | cons s mid =>
      cases hRest
      exact absurd hLine.symm (Nat.ne_of_lt (h'.line_lt h))

theorem Trails.endsLine (h : Trails u us t vs kept run back) :
    ∃ front c, EndsLine u us t vs front c back ∧ isLoose t c = true ∧
      lineBehind (us.flatMap (·.chars) ++ front) = lineBehind (us.flatMap (·.chars) ++ kept) := by
  obtain ⟨init, c, rfl⟩ := run.eq_nil_or_concat'.resolve_left h.nonempty
  have hInit : '\n' ∉ init := fun hMem => h.inline (List.mem_append_left _ hMem)
  refine ⟨kept ++ init, c, ⟨h.tokens, ?_, ?_, h.last⟩, h.loose c (by simp), ?_⟩
  · rw [h.chars]
    simp only [List.append_assoc, List.singleton_append]
  · rintro rfl
    exact h.inline (by simp)
  · rw [lineBehind, lineBehind, ← List.append_assoc, List.count_append, List.count_eq_zero.mpr hInit,
      Nat.add_zero]

theorem Trails.tokens_eq {us' vs' : List Token} {t' : Token} {kept' run' back' : List Char}
    (h : Trails u us t vs kept run back) (h' : Trails u us' t' vs' kept' run' back')
    (hLine : lineBehind (us.flatMap (·.chars) ++ kept) =
      lineBehind (us'.flatMap (·.chars) ++ kept')) : us = us' ∧ t = t' := by
  obtain ⟨front, c, hEnds, -, hOwn⟩ := h.endsLine
  obtain ⟨front', c', hEnds', -, hOwn'⟩ := h'.endsLine
  exact hEnds.tokens_eq hEnds' (hOwn.trans (hLine.trans hOwn'.symm))

theorem endsInComment_iff (hTrails : Trails u us t vs kept run back) :
    EndsInComment u (lineBehind (us.flatMap (·.chars) ++ kept)) ↔ t.kind.isComment = true := by
  obtain ⟨front, c, hEnds, -, hOwn⟩ := hTrails.endsLine
  constructor
  · rintro ⟨us', t', vs', front', c', back', hEnds', hComment, hLine⟩
    obtain ⟨rfl, rfl⟩ := hEnds.tokens_eq hEnds' (hOwn.trans hLine.symm)
    exact hComment
  · intro hComment
    exact ⟨us, t, vs, front, c, back, hEnds, hComment, hOwn⟩

/-! ## Where tokens meet line feeds -/

theorem lastPart_eq_nil_iff {xs : List Char} :
    lastPart xs = [] ↔ ∀ d ∈ xs.getLast?, d = '\n' := by
  rcases xs.eq_nil_or_concat with rfl | ⟨init, d, rfl⟩
  · simp [lastPart]
  · rw [List.concat_eq_append, List.getLast?_concat]
    by_cases hd : d = '\n'
    · simp [hd, lastPart_concat_feed]
    · have hInline : '\n' ∉ [d] := by simpa using Ne.symm hd
      simp [hd, lastPart_append hInline]

end RuleScout.Layout

namespace RuleScout.Cursor

variable {cur : Cursor} {kind : TokenKind} {c : Char} {pre rest : List Char}

theorem Reads.inline_of_whitespace (h : cur.Reads kind c pre rest) (hKind : kind = .whitespace) :
    '\n' ∉ c :: pre := by
  have hBreak : isLineBreak '\n' = true := rfl
  cases h with
  | whitespace hSpacing hInline hRun =>
    intro hMem
    rcases List.mem_cons.mp hMem with rfl | hMem
    · rw [hBreak] at hInline
      cases hInline
    · have hInside := hRun.inside _ hMem
      rw [hBreak, Bool.not_true, Bool.and_false] at hInside
      cases hInside
  | word hStart hRun => split at hKind <;> cases hKind
  | _ => cases hKind

/-- A comment that ends with a space goes on to the end of its line. -/
theorem Reads.stops_of_comment (h : cur.Reads kind c pre rest) (hKind : kind.isComment = true)
    (hLoose : ∃ d ∈ (c :: pre).getLast?, Line.isIndent d = true) :
    ∀ d ∈ rest.head?, isLineBreak d = true := by
  cases h with
  | shebang hStart hMark hRun =>
    intro d hd
    have hStop := hRun.stops d hd
    simp [isLineBreak] at hStop ⊢
    exact .inl hStop
  | lineComment hMark hRun =>
    intro d hd
    simpa using hRun.stops d hd
  | blockComment hBody =>
    have hEnd := (Literal.scanBlockComment_eq_length_iff.mp hBody).getLast?
    obtain ⟨d, hd, hIndent⟩ := hLoose
    rw [getLast?_cons_of_some (getLast?_cons_of_some hEnd)] at hd
    cases hd
    exact absurd hIndent (by decide)
  | word hStart hRun => split at hKind <;> cases hKind
  | _ => cases hKind

end RuleScout.Cursor

namespace RuleScout.Layout

open Text Line

variable {u : SourceUnit} {path text : String} {us vs ts : List Token} {t : Token}
  {kept run back front : List Char} {c : Char} {v : Violation} {before after : Option Token}
  {skipBlank ignoreComments : Bool}

theorem isLoose_whitespace (hKind : t.kind = .whitespace) (c : Char) : isLoose t c = true := by
  simp [isLoose, hKind]

theorem isLoose_comment (hKind : t.kind.isComment = true) (c : Char) :
    isLoose t c = isIndent c := by
  have hOther : t.kind ≠ .whitespace := by
    intro hEq
    rw [hEq] at hKind
    cases hKind
  simp [isLoose, hKind, hOther]

def ofToken (skipBlank ignoreComments : Bool) (before : Option Token) (t : Token)
    (after : Option Token) : List Violation :=
  if t.kind = .whitespace then ofSpace skipBlank before t after
  else if t.kind.isComment && !ignoreComments then inComment t.line t.column (split t.chars)
  else []

/-- The options leave out what the token has at its line ends. -/
def LeftOut (skipBlank ignoreComments : Bool) (us : List Token) (t : Token) : Prop :=
  (skipBlank = true ∧ t.kind = .whitespace ∧ lastPart (us.flatMap (·.chars)) = []) ∨
    (ignoreComments = true ∧ t.kind.isComment = true)

theorem trailingSpaces_cons (skipBlank ignoreComments : Bool) (before : Option Token) (t : Token)
    (ts : List Token) :
    trailingSpaces skipBlank ignoreComments before (t :: ts) =
      ofToken skipBlank ignoreComments before t ts.head? ++
        trailingSpaces skipBlank ignoreComments (some t) ts := rfl

theorem inComment_lines (line column : Nat) (parts : List (List Char)) :
    (∀ v ∈ inComment line column parts, line ≤ v.line) ∧
      (inComment line column parts).Pairwise (·.line < ·.line) := by
  induction parts generalizing line column with
  | nil => exact ⟨nofun, .nil⟩
  | cons part parts ih =>
    obtain ⟨hBehind, hSorted⟩ := ih (line + 1) 1
    rw [inComment]
    split
    · exact ⟨fun v hv => Nat.le_of_lt (hBehind v hv), hSorted⟩
    · exact ⟨List.forall_mem_cons.mpr ⟨Nat.le_refl line, fun v hv => Nat.le_of_lt (hBehind v hv)⟩,
        List.pairwise_cons.mpr ⟨hBehind, hSorted⟩⟩

theorem ofToken_lines :
    (ofToken skipBlank ignoreComments before t after).Pairwise (·.line < ·.line) := by
  rw [ofToken]
  split
  · rw [ofSpace]
    split
    · exact List.pairwise_singleton _ _
    · exact .nil
  · split
    · exact (inComment_lines _ _ _).2
    · exact .nil

theorem ofToken_sublist :
    (ofToken skipBlank ignoreComments before t after).Sublist (ofToken false false before t after) := by
  rw [ofToken, ofToken]
  split
  · rw [ofSpace, ofSpace]
    generalize after.all (·.kind = .newline) = atLineEnd
    cases atLineEnd
    · exact List.Sublist.refl _
    · split
      · exact List.Sublist.refl _
      · exact List.nil_sublist _
  · cases ignoreComments
    · exact List.Sublist.refl _
    · rw [Bool.not_true, Bool.and_false]
      exact List.nil_sublist _

theorem trailingSpaces_sublist {ts : List Token} :
    (trailingSpaces skipBlank ignoreComments before ts).Sublist
      (trailingSpaces false false before ts) := by
  induction ts generalizing before with
  | nil => exact List.Sublist.refl _
  | cons t ts ih => exact ofToken_sublist.append ih

section Tokens

variable (h : SourceUnit.parse path text = .ok u) (hReturn : '\r' ∉ text.toList)
include h hReturn

theorem return_not_mem (hTokens : u.tokens.toList = us ++ vs) :
    '\r' ∉ us.flatMap (·.chars) ∧ '\r' ∉ vs.flatMap (·.chars) := by
  have hText := (cuts_of_lex (SourceUnit.lex_tokens h)).flatMap_chars
  rw [hTokens, List.flatMap_append] at hText
  rw [← hText, List.mem_append, not_or] at hReturn
  exact hReturn

/-- Line breaks are the tokens that begin, and those that end, with a line feed. -/
theorem newline_iff (hTokens : u.tokens.toList = us ++ t :: vs) :
    (t.kind = .newline ↔ t.chars.head? = some '\n') ∧
      (t.kind = .newline ↔ t.chars.getLast? = some '\n') := by
  have hLex : lex text = .ok (us ++ t :: vs) := hTokens ▸ SourceUnit.lex_tokens h
  obtain ⟨c, pre, rest, -, hChars, hReads⟩ := (cuts_of_lex hLex).reads
  have hOwn : '\r' ∉ t.chars := fun hMem =>
    (return_not_mem h hReturn hTokens).2 (List.mem_flatMap_of_mem List.mem_cons_self hMem)
  have hNewline (hKind : t.kind = .newline) : t.chars = ['\n'] := by
    rcases hReads.chars_of_newline hKind with hFeed | hBoth | hLone
    · exact hChars.trans hFeed
    · rw [hChars, hBoth] at hOwn
      exact absurd List.mem_cons_self hOwn
    · rw [hChars, hLone] at hOwn
      exact absurd List.mem_cons_self hOwn
  refine ⟨⟨fun hKind => by rw [hNewline hKind]; rfl, fun hHead => ?_⟩,
    fun hKind => by rw [hNewline hKind]; rfl, fun hLast => ?_⟩
  · rw [hChars] at hHead
    cases hHead
    have hFeed := Cursor.lexeme_of_reads hReads
    rw [Cursor.lexeme_lineFeed] at hFeed
    exact (congrArg Prod.fst (Except.ok.inj hFeed)).symm
  · by_contra hKind
    rw [hChars] at hLast
    exact hReads.last_ne_feed hKind hLast

theorem all_head?_iff (hTokens : u.tokens.toList = us ++ vs) :
    vs.head?.all (·.kind = .newline) = true ↔ ∀ d ∈ (vs.flatMap (·.chars)).head?, d = '\n' := by
  cases vs with
  | nil => simp
  | cons s vs =>
    have hNonempty : s.chars ≠ [] := (cuts_of_lex (SourceUnit.lex_tokens h)).chars_ne_nil s
      (by simp [hTokens])
    obtain ⟨d, ds, hChars⟩ := List.exists_cons_of_ne_nil hNonempty
    have hKind := (newline_iff h hReturn hTokens).1
    rw [hChars, List.head?_cons, Option.some_inj] at hKind
    simp [hKind, hChars]

theorem all_getLast?_iff (hTokens : u.tokens.toList = us ++ vs) :
    us.getLast?.all (·.kind = .newline) = true ↔ lastPart (us.flatMap (·.chars)) = [] := by
  rw [lastPart_eq_nil_iff]
  rcases us.eq_nil_or_concat with rfl | ⟨init, s, rfl⟩
  · simp
  · rw [List.concat_eq_append, List.append_assoc, List.singleton_append] at hTokens
    have hNonempty : s.chars ≠ [] := (cuts_of_lex (SourceUnit.lex_tokens h)).chars_ne_nil s
      (by simp [hTokens])
    have hKind := (newline_iff h hReturn hTokens).2
    have hLast : (init.flatMap (·.chars) ++ s.chars).getLast? = s.chars.getLast? :=
      List.getLast?_append_of_ne_nil _ hNonempty
    cases hEnd : s.chars.getLast? with
    | none => exact absurd (List.getLast?_eq_none_iff.mp hEnd) hNonempty
    | some d =>
      rw [hEnd, Option.some_inj] at hKind
      simp [hKind, hLast, hEnd]

omit hReturn in
theorem feed_not_mem_whitespace (hTokens : u.tokens.toList = us ++ t :: vs)
    (hKind : t.kind = .whitespace) : '\n' ∉ t.chars := by
  have hLex : lex text = .ok (us ++ t :: vs) := hTokens ▸ SourceUnit.lex_tokens h
  obtain ⟨c, pre, rest, -, hChars, hReads⟩ := (cuts_of_lex hLex).reads
  exact hChars ▸ hReads.inline_of_whitespace hKind

omit hReturn in
theorem trails_whitespace_iff (hTokens : u.tokens.toList = us ++ t :: vs)
    (hKind : t.kind = .whitespace) :
    Trails u us t vs kept run back ↔
      kept = [] ∧ run = t.chars ∧ back = [] ∧ ∀ d ∈ (vs.flatMap (·.chars)).head?, d = '\n' := by
  have hInline := feed_not_mem_whitespace h hTokens hKind
  have hNonempty : t.chars ≠ [] :=
    (cuts_of_lex (SourceUnit.lex_tokens h)).chars_ne_nil t (by simp [hTokens])
  constructor
  · intro hTrails
    have hKept : kept = [] := by
      cases hLast : kept.getLast? with
      | none => exact List.getLast?_eq_none_iff.mp hLast
      | some d =>
        have hTight := hTrails.longest d hLast
        rw [isLoose_whitespace hKind] at hTight
        cases hTight
    have hBack : back = [] := by
      cases back with
      | nil => rfl
      | cons d back =>
        obtain rfl := hTrails.last d rfl
        exact absurd (by simp [hTrails.chars]) hInline
    subst hKept hBack
    exact ⟨rfl, by simp [hTrails.chars], rfl, hTrails.last⟩
  · rintro ⟨rfl, rfl, rfl, hLast⟩
    refine ⟨hTokens, by simp, hNonempty, hInline, fun c _ => isLoose_whitespace hKind c, ?_,
      hLast⟩
    simp

theorem trails_comment_iff (hTokens : u.tokens.toList = us ++ t :: vs)
    (hKind : t.kind.isComment = true) :
    Trails u us t vs kept run back ↔ EndsPart t.chars kept run back := by
  constructor
  · intro hTrails
    refine ⟨hTrails.chars, hTrails.nonempty, ?_, ?_, fun d hd => ?_⟩
    · simpa only [isLoose_comment hKind] using hTrails.loose
    · simpa only [isLoose_comment hKind] using hTrails.longest
    · exact hTrails.last d (by rw [List.head?_append, hd]; rfl)
  · intro hPart
    refine ⟨hTokens, hPart.chars, hPart.nonempty, feed_not_mem_indent hPart.loose, ?_, ?_, ?_⟩
    · simpa only [isLoose_comment hKind] using hPart.loose
    · simpa only [isLoose_comment hKind] using hPart.longest
    · cases back with
      | cons d back => exact hPart.last
      | nil =>
        have hLex : lex text = .ok (us ++ t :: vs) := hTokens ▸ SourceUnit.lex_tokens h
        obtain ⟨c, pre, rest, hText, hChars, hReads⟩ := (cuts_of_lex hLex).reads
        have hRest : vs.flatMap (·.chars) = rest := by
          have hSame := (text_around hLex).symm.trans hText
          rw [hChars, List.append_cancel_left_eq, List.cons_append, List.cons_inj_right,
            List.append_cancel_left_eq] at hSame
          exact hSame
        obtain ⟨init, d, hRun⟩ := run.eq_nil_or_concat'.resolve_left hPart.nonempty
        have hEnd : (c :: pre).getLast? = some d := by
          rw [← hChars, hPart.chars, hRun]
          simp
        have hIndent : isIndent d = true := hPart.loose d (by simp [hRun])
        have hStops := hReads.stops_of_comment hKind ⟨d, hEnd, hIndent⟩
        have hNone := (return_not_mem h hReturn hTokens).2
        intro e he
        rw [List.nil_append, hRest] at he
        have hBreak := hStops e he
        rw [List.flatMap_cons, hRest, List.mem_append, not_or] at hNone
        have hOther : e ≠ '\r' := fun hEq => hNone.2 (hEq ▸ List.mem_of_mem_head? he)
        simpa [isLineBreak, hOther] using hBreak

theorem place_eq (hTokens : u.tokens.toList = us ++ t :: vs) :
    t.line = lineBehind (us.flatMap (·.chars)) ∧
      t.column = (lastPart (us.flatMap (·.chars))).length + 1 := by
  refine place_of_lex (hTokens ▸ SourceUnit.lex_tokens h) fun s hs => ?_
  exact hasLoneReturn_of_not_mem fun hMem =>
    (return_not_mem h hReturn hTokens).1 (List.mem_flatMap_of_mem hs hMem)

theorem mem_ofSpace_iff (hTokens : u.tokens.toList = us ++ t :: vs) :
    v ∈ ofSpace skipBlank us.getLast? t vs.head? ↔
      (∀ d ∈ (vs.flatMap (·.chars)).head?, d = '\n') ∧ v = foundBehind (us.flatMap (·.chars)) ∧
        ¬(skipBlank = true ∧ lastPart (us.flatMap (·.chars)) = []) := by
  have hBehind : u.tokens.toList = (us ++ [t]) ++ vs := by simp [hTokens]
  obtain ⟨hLine, hColumn⟩ := place_eq h hReturn hTokens
  rw [ofSpace, ← all_head?_iff h hReturn hBehind, ← all_getLast?_iff h hReturn hTokens, foundBehind,
    ← hLine, ← hColumn]
  generalize vs.head?.all (·.kind = .newline) = atLineEnd
  generalize us.getLast?.all (·.kind = .newline) = blank
  cases atLineEnd <;> cases skipBlank <;> cases blank <;> simp

theorem mem_ofComment_iff (hTokens : u.tokens.toList = us ++ t :: vs) :
    v ∈ inComment t.line t.column (split t.chars) ↔
      ∃ kept run back, EndsPart t.chars kept run back ∧
        v = foundBehind (us.flatMap (·.chars) ++ kept) := by
  obtain ⟨hLine, hColumn⟩ := place_eq h hReturn hTokens
  have hOwn : '\r' ∉ t.chars := fun hMem =>
    (return_not_mem h hReturn hTokens).2 (List.mem_flatMap_of_mem List.mem_cons_self hMem)
  rw [hLine, hColumn, mem_inComment_split_iff hOwn]

/-- What the rule finds at one token: the runs that trail there and are not left out. -/
theorem mem_ofToken_iff (hTokens : u.tokens.toList = us ++ t :: vs) :
    v ∈ ofToken skipBlank ignoreComments us.getLast? t vs.head? ↔
      (∃ kept run back, Trails u us t vs kept run back ∧
        v = foundBehind (us.flatMap (·.chars) ++ kept)) ∧
        ¬LeftOut skipBlank ignoreComments us t := by
  rw [ofToken]
  split
  case isTrue hSpace =>
    have hLeft : LeftOut skipBlank ignoreComments us t ↔
        skipBlank = true ∧ lastPart (us.flatMap (·.chars)) = [] := by
      simp [LeftOut, hSpace, TokenKind.isComment]
    rw [mem_ofSpace_iff h hReturn hTokens, hLeft, ← and_assoc]
    refine and_congr_left fun _ => ?_
    simp only [trails_whitespace_iff h hTokens hSpace]
    constructor
    · rintro ⟨hLast, rfl⟩
      exact ⟨[], t.chars, [], ⟨rfl, rfl, rfl, hLast⟩, by rw [List.append_nil]⟩
    · rintro ⟨kept, run, back, ⟨rfl, -, -, hLast⟩, rfl⟩
      exact ⟨hLast, by rw [List.append_nil]⟩
  case isFalse hSpace =>
    split
    case isTrue hComment =>
      rw [Bool.and_eq_true, Bool.not_eq_true'] at hComment
      obtain ⟨hComment, hNamed⟩ := hComment
      rw [mem_ofComment_iff h hReturn hTokens]
      simp only [trails_comment_iff h hReturn hTokens hComment]
      refine (and_iff_left ?_).symm
      rintro (⟨-, hEq, -⟩ | ⟨hEq, -⟩)
      · exact hSpace hEq
      · rw [hEq] at hNamed
        cases hNamed
    case isFalse hOther =>
      refine iff_of_false List.not_mem_nil ?_
      rintro ⟨⟨kept, run, back, hTrails, -⟩, hKept⟩
      obtain ⟨c, hc⟩ := List.exists_mem_of_ne_nil _ hTrails.nonempty
      have hLoose := hTrails.loose c hc
      refine hKept (.inr ?_)
      simp_all [isLoose]

theorem mem_trailingSpaces_iff {ts : List Token} (hTokens : u.tokens.toList = us ++ ts) :
    v ∈ trailingSpaces skipBlank ignoreComments us.getLast? ts ↔
      ∃ mid t vs kept run back, ts = mid ++ t :: vs ∧ Trails u (us ++ mid) t vs kept run back ∧
        v = foundBehind ((us ++ mid).flatMap (·.chars) ++ kept) ∧
        ¬LeftOut skipBlank ignoreComments (us ++ mid) t := by
  induction ts generalizing us with
  | nil => simp [trailingSpaces]
  | cons t ts ih =>
    have hNext : u.tokens.toList = (us ++ [t]) ++ ts := by simp [hTokens]
    have hLater := ih hNext
    rw [List.getLast?_concat] at hLater
    rw [trailingSpaces_cons, List.mem_append, hLater, mem_ofToken_iff h hReturn hTokens]
    constructor
    · rintro (⟨⟨kept, run, back, hTrails, rfl⟩, hKept⟩ |
        ⟨mid, s, vs, kept, run, back, rfl, hTrails, rfl, hKept⟩)
      · exact ⟨[], t, ts, kept, run, back, rfl, by rwa [List.append_nil], by rw [List.append_nil],
          by rwa [List.append_nil]⟩
      · rw [List.append_assoc, List.singleton_append] at hTrails hKept
        exact ⟨t :: mid, s, vs, kept, run, back, rfl, hTrails, by simp, hKept⟩
    · rintro ⟨mid, s, vs, kept, run, back, hSplit, hTrails, rfl, hKept⟩
      cases mid with
      | nil =>
        cases hSplit
        rw [List.append_nil] at hTrails hKept ⊢
        exact .inl ⟨⟨kept, run, back, hTrails, rfl⟩, hKept⟩
      | cons r mid =>
        cases hSplit
        refine .inr ⟨mid, s, vs, kept, run, back, rfl, ?_, ?_, ?_⟩
        all_goals rw [List.append_assoc, List.singleton_append]
        exacts [hTrails, hKept]

theorem trailingSpaces_lines {ts : List Token} (hTokens : u.tokens.toList = us ++ ts) :
    (trailingSpaces skipBlank ignoreComments us.getLast? ts).Pairwise (·.line < ·.line) := by
  induction ts generalizing us with
  | nil => exact .nil
  | cons t ts ih =>
    have hNext : u.tokens.toList = (us ++ [t]) ++ ts := by simp [hTokens]
    have hSorted := ih hNext
    have hLater (w : Violation) :
        w ∈ trailingSpaces skipBlank ignoreComments (us ++ [t]).getLast? ts ↔ _ :=
      mem_trailingSpaces_iff h hReturn hNext
    rw [List.getLast?_concat] at hSorted
    simp only [List.getLast?_concat] at hLater
    rw [trailingSpaces_cons, List.pairwise_append]
    refine ⟨ofToken_lines, hSorted, fun v hv w hw => ?_⟩
    obtain ⟨⟨kept, run, back, hTrails, rfl⟩, -⟩ := (mem_ofToken_iff h hReturn hTokens).mp hv
    obtain ⟨mid, s, vs, kept', run', back', rfl, hTrails', rfl, -⟩ := (hLater w).mp hw
    obtain ⟨front, c, hEnds, -, hLine⟩ := hTrails.endsLine
    obtain ⟨front', c', hEnds', -, hLine'⟩ := hTrails'.endsLine
    rw [List.append_assoc, List.singleton_append] at hEnds' hLine' ⊢
    have hLt := hEnds.line_lt hEnds'
    rw [hLine, hLine'] at hLt
    exact hLt

theorem check_eq_trailingSpaces (options : Options) :
    noTrailingSpaces.check u options =
      trailingSpaces (options.flag 0 "skipBlankLines" false)
        (options.flag 0 "ignoreComments" false) none u.tokens.toList := by
  have hTokens : u.tokens.toList = [] ++ u.tokens.toList := rfl
  refine List.mergeSort_of_pairwise ((trailingSpaces_lines h hReturn hTokens).imp fun hLt => ?_)
  rw [precedes, decide_eq_true hLt, Bool.true_or]

theorem mem_check_iff (options : Options) :
    v ∈ noTrailingSpaces.check u options ↔
      ∃ us t vs kept run back, Trails u us t vs kept run back ∧
        v = foundBehind (us.flatMap (·.chars) ++ kept) ∧
        ¬LeftOut (options.flag 0 "skipBlankLines" false) (options.flag 0 "ignoreComments" false)
          us t := by
  have hTokens : u.tokens.toList = [] ++ u.tokens.toList := rfl
  rw [check_eq_trailingSpaces h hReturn]
  refine (mem_trailingSpaces_iff h hReturn hTokens).trans ?_
  simp only [List.nil_append]
  refine exists_congr fun us => exists_congr fun t => exists_congr fun vs => ?_
  simp only [exists_and_left]
  refine and_iff_right_of_imp ?_
  rintro ⟨kept, run, back, hTrails, -⟩
  exact hTrails.tokens

omit hReturn in
/-- A line that ends with a loose character ends with a run of them. -/
theorem EndsLine.exists_trails (hEnds : EndsLine u us t vs front c back) (hLoose : isLoose t c = true) :
    ∃ kept run, Trails u us t vs kept run back ∧
      lineBehind (us.flatMap (·.chars) ++ kept) = lineBehind (us.flatMap (·.chars) ++ front) := by
  obtain ⟨kept, run, hSplit, hRun, hKept⟩ := exists_runAtEnd (isLoose t) (front ++ [c])
  have hNonempty : run ≠ [] := by
    rintro rfl
    rw [List.append_nil] at hSplit
    have hTight := hKept c (by simp [← hSplit])
    rw [hLoose] at hTight
    cases hTight
  have hChars : t.chars = kept ++ (run ++ back) := by
    rw [← List.append_assoc, ← hSplit, hEnds.chars]
    simp
  have hInline : '\n' ∉ run := by
    intro hMem
    have hFeed := hRun _ hMem
    rw [isLoose, Bool.or_eq_true] at hFeed
    rcases hFeed with hSpace | hComment
    · refine feed_not_mem_whitespace h hEnds.tokens (of_decide_eq_true hSpace) ?_
      simp [hChars, hMem]
    · simp [isIndent] at hComment
  have hCount := congrArg (List.count '\n') hSplit
  rw [List.count_append, List.count_append, List.count_eq_zero.mpr hInline,
    List.count_singleton, if_neg (by simpa using hEnds.inline)] at hCount
  refine ⟨kept, run, ⟨hEnds.tokens, hChars, hNonempty, hInline, hRun, hKept, hEnds.last⟩, ?_⟩
  rw [lineBehind, lineBehind, List.count_append, List.count_append]
  omega

omit hReturn in
theorem isBlankLine_iff (hTrails : Trails u us t vs kept run back) :
    IsBlankLine u (lineBehind (us.flatMap (·.chars) ++ kept)) ↔
      t.kind = .whitespace ∧ lastPart (us.flatMap (·.chars)) = [] := by
  constructor
  · rintro ⟨us', t', vs', hTokens, hKind, hFirst, hLast, hLine⟩
    have hBlank := (trails_whitespace_iff h hTokens hKind).mpr ⟨rfl, rfl, rfl, hLast⟩
    rw [← List.append_nil (us'.flatMap (·.chars))] at hLine
    obtain ⟨rfl, rfl⟩ := hTrails.tokens_eq hBlank hLine.symm
    exact ⟨hKind, hFirst⟩
  · rintro ⟨hKind, hFirst⟩
    obtain ⟨rfl, -, -, hLast⟩ := (trails_whitespace_iff h hTrails.tokens hKind).mp hTrails
    exact ⟨us, t, vs, hTrails.tokens, hKind, hFirst, hLast, by rw [List.append_nil]⟩

theorem found_iff (hTrails : Trails u us t vs kept run back) (options : Options) :
    foundBehind (us.flatMap (·.chars) ++ kept) ∈ noTrailingSpaces.check u options ↔
      ¬LeftOut (options.flag 0 "skipBlankLines" false) (options.flag 0 "ignoreComments" false)
        us t := by
  rw [mem_check_iff h hReturn]
  constructor
  · rintro ⟨us', t', vs', kept', run', back', hTrails', hSame, hKept⟩
    obtain ⟨rfl, rfl⟩ := hTrails.tokens_eq hTrails' (congrArg Violation.line hSame)
    exact hKept
  · exact fun hKept => ⟨us, t, vs, kept, run, back, hTrails, rfl, hKept⟩

end Tokens

structure ByLine (u : SourceUnit) (found : List Violation) : Prop where
  ordered : found.Pairwise (·.line < ·.line)
  lines : ∀ k, (∃ v ∈ found, v.line = k) ↔ ∃ us t vs front c back,
    EndsLine u us t vs front c back ∧ isLoose t c = true ∧
      lineBehind (us.flatMap (·.chars) ++ front) = k
  places : ∀ v ∈ found, ∃ us t vs kept run back,
    Trails u us t vs kept run back ∧ v = foundBehind (us.flatMap (·.chars) ++ kept)

/-- The rule finds the lines that end with white space. One option leaves out blank lines, the
other one leaves out comments. -/
theorem trailing_spaces_by_line (h : SourceUnit.parse path text = .ok u)
    (hReturn : '\r' ∉ text.toList) (plain options : Options)
    (hBlank : plain.flag 0 "skipBlankLines" false = false)
    (hComments : plain.flag 0 "ignoreComments" false = false) :
    ByLine u (noTrailingSpaces.check u plain) ∧
      (noTrailingSpaces.check u options).Sublist (noTrailingSpaces.check u plain) ∧
      ∀ v ∈ noTrailingSpaces.check u plain, v ∈ noTrailingSpaces.check u options ↔
        ¬(options.flag 0 "skipBlankLines" false = true ∧ IsBlankLine u v.line) ∧
        ¬(options.flag 0 "ignoreComments" false = true ∧ EndsInComment u v.line) := by
  have hNone (us : List Token) (t : Token) : ¬LeftOut (plain.flag 0 "skipBlankLines" false)
      (plain.flag 0 "ignoreComments" false) us t := by
    simp [LeftOut, hBlank, hComments]
  have hTokens : u.tokens.toList = [] ++ u.tokens.toList := rfl
  refine ⟨⟨?_, fun k => ?_, fun v hv => ?_⟩, ?_, fun v hv => ?_⟩
  · rw [check_eq_trailingSpaces h hReturn]
    exact trailingSpaces_lines h hReturn hTokens
  · constructor
    · rintro ⟨v, hv, rfl⟩
      obtain ⟨us, t, vs, kept, run, back, hTrails, rfl, -⟩ := (mem_check_iff h hReturn plain).mp hv
      obtain ⟨front, c, hEnds, hLoose, hLine⟩ := hTrails.endsLine
      exact ⟨us, t, vs, front, c, back, hEnds, hLoose, hLine⟩
    · rintro ⟨us, t, vs, front, c, back, hEnds, hLoose, rfl⟩
      obtain ⟨kept, run, hTrails, hLine⟩ := hEnds.exists_trails h hLoose
      exact ⟨_, (mem_check_iff h hReturn plain).mpr
        ⟨us, t, vs, kept, run, back, hTrails, rfl, hNone us t⟩, hLine⟩
  · obtain ⟨us, t, vs, kept, run, back, hTrails, hv, -⟩ := (mem_check_iff h hReturn plain).mp hv
    exact ⟨us, t, vs, kept, run, back, hTrails, hv⟩
  · rw [check_eq_trailingSpaces h hReturn, check_eq_trailingSpaces h hReturn, hBlank, hComments]
    exact trailingSpaces_sublist
  · obtain ⟨us, t, vs, kept, run, back, hTrails, rfl, -⟩ := (mem_check_iff h hReturn plain).mp hv
    rw [found_iff h hReturn hTrails options, LeftOut, not_or, ← isBlankLine_iff h hTrails,
      ← endsInComment_iff hTrails]
    rfl

theorem trailing_spaces_by_line_comment :
    let options : Options :=
      ⟨[.object [("skipBlankLines", .bool true), ("ignoreComments", .bool true)]]⟩
    ∃ u, SourceUnit.parse "a.js" "a; \n \n/* 1 \n2 */ \n// 3 " = .ok u ∧
      noTrailingSpaces.check u .empty =
        [trailing 1 3, trailing 2 1, trailing 3 5, trailing 4 5, trailing 5 5] ∧
      noTrailingSpaces.check u options = [trailing 1 3, trailing 4 5] ∧
      ByLine u (noTrailingSpaces.check u .empty) ∧
      ∀ v ∈ noTrailingSpaces.check u .empty, v ∈ noTrailingSpaces.check u options ↔
        ¬IsBlankLine u v.line ∧ ¬EndsInComment u v.line := by
  intro options
  obtain ⟨u, h, hPlain, hFound⟩ : ∃ u,
      SourceUnit.parse "a.js" "a; \n \n/* 1 \n2 */ \n// 3 " = .ok u ∧
      trailingSpaces false false none u.tokens.toList =
        [trailing 1 3, trailing 2 1, trailing 3 5, trailing 4 5, trailing 5 5] ∧
      trailingSpaces true true none u.tokens.toList = [trailing 1 3, trailing 4 5] :=
    exists_ok (by decide +kernel)
  have hFlags : options.flag 0 "skipBlankLines" false = true ∧
      options.flag 0 "ignoreComments" false = true := by decide
  have hReturn : '\r' ∉ "a; \n \n/* 1 \n2 */ \n// 3 ".toList := by decide
  obtain ⟨hLines, -, hKept⟩ := trailing_spaces_by_line h hReturn .empty options rfl rfl
  refine ⟨u, h, ?_, ?_, hLines, fun v hv => (hKept v hv).trans ?_⟩
  · exact (check_eq_trailingSpaces h hReturn .empty).trans hPlain
  · exact (check_eq_trailingSpaces h hReturn options).trans hFound
  · rw [hFlags.1, hFlags.2, eq_self, true_and, true_and]

end RuleScout.Layout
