import RuleScout.Proofs.TwinTokens

/-!
# What stands around a token

A text is cut by looking at little besides it: at whether a slash may open a regular expression
there, and at whether the text is the first of the file. Blanks in front of it only make or lengthen
trivia. A token in turn looks at the few characters behind it, and hardly past one that no token
goes on with.
-/

set_option autoImplicit false

namespace RuleScout

open Text Literal

/-- What a token says, wherever it stands. -/
structure Piece where
  kind : TokenKind
  text : String
  deriving DecidableEq, Repr

def Lexeme.piece (l : Lexeme) : Piece := ⟨l.kind, l.text⟩

theorem filter_cons_trivia (t : Token) (ts : List Token) (h : t.kind.isTrivia = true) :
    (t :: ts).filter (·.isSignificant) = ts.filter (·.isSignificant) := by
  rw [List.filter_cons, if_neg (by simp [Lexeme.isSignificant, h])]

theorem filter_cons_significant (t : Token) (ts : List Token) (h : t.kind.isTrivia = false) :
    (t :: ts).filter (·.isSignificant) = t :: ts.filter (·.isSignificant) := by
  rw [List.filter_cons, if_pos (by simp [Lexeme.isSignificant, h])]

/-- What the tokens say that are not trivia. -/
def significantPieces (ts : List Token) : List Piece :=
  (ts.filter (·.isSignificant)).map (·.piece)

theorem significantPieces_cons_trivia (t : Token) (ts : List Token) (h : t.kind.isTrivia = true) :
    significantPieces (t :: ts) = significantPieces ts := by
  rw [significantPieces, filter_cons_trivia t ts h, significantPieces]

theorem significantPieces_cons_significant (t : Token) (ts : List Token)
    (h : t.kind.isTrivia = false) :
    significantPieces (t :: ts) = t.piece :: significantPieces ts := by
  rw [significantPieces, filter_cons_significant t ts h, List.map_cons, significantPieces]

/-! ## Where texts part -/

/-- The characters that no name, number or flag of a regular expression goes on with, and no
punctuator either. -/
def isParting (c : Char) : Bool := isSpacing c || c = '/' || c = ';' || c = '\x7d'

def partingCodes : List Nat := 0x2F :: 0x3B :: 0x7D :: spacingCodes

theorem mem_partingCodes {c : Char} (h : isParting c = true) : c.toNat ∈ partingCodes := by
  simp only [isParting, Bool.or_eq_true, decide_eq_true_eq] at h
  rcases h with ((h | rfl) | rfl) | rfl
  · exact List.mem_append_right [0x2F, 0x3B, 0x7D] (mem_spacingCodes h)
  · decide
  · decide
  · decide

theorem punctuators_parting : ∀ p ∈ punctuators, ∀ d ∈ p.toList.tail, isParting d = false := by
  have hAll : punctuators.all (fun p => p.toList.tail.all fun d => !isParting d) = true := by
    decide +kernel
  intro p hp d hd
  have hOwn := List.all_eq_true.mp (List.all_eq_true.mp hAll p hp) d hd
  rwa [Bool.not_eq_true'] at hOwn

section Parted

variable {c : Char} {pre same more more' : List Char}
  (hParted : ∀ d ∈ more'.head?, isParting d = true)
include hParted

theorem stops_parted {p : Char → Bool} (hCodes : ∀ n ∈ partingCodes, p (Char.ofNat n) = false)
    (h : ∀ d ∈ (same ++ more).head?, p d = false) : ∀ d ∈ (same ++ more').head?, p d = false := by
  cases same with
  | nil => exact fun d hd => eq_false_of_code p hCodes (mem_partingCodes (hParted d hd))
  | cons d same => exact h

theorem LongestRun.parted {p : Char → Bool} (hCodes : ∀ n ∈ partingCodes, p (Char.ofNat n) = false)
    (h : LongestRun p pre (same ++ more)) : LongestRun p pre (same ++ more') :=
  ⟨h.inside, stops_parted hParted hCodes h.stops⟩

theorem prefix_parted {p : List Char} (hTail : ∀ d ∈ p.tail, isParting d = false)
    (h : p <+: c :: (same ++ more')) : p <+: c :: (same ++ more) := by
  suffices hSame : p <+: c :: same from hSame.trans (by simp)
  rcases Nat.lt_or_ge (c :: same).length p.length with hLonger | hShorter
  · obtain ⟨past, rfl⟩ := List.prefix_of_prefix_length_le (List.prefix_append (c :: same) more')
      h hLonger.le
    rw [← List.cons_append, List.prefix_append_right_inj] at h
    cases past with
    | nil => simp at hLonger
    | cons d past =>
      have hPasses := hParted d (mem_head?_of_shorter h d rfl)
      rw [hTail d (by simp)] at hPasses
      cases hPasses
  · exact List.prefix_of_prefix_length_le h (List.prefix_append (c :: same) more') hShorter

end Parted

namespace Cursor

variable {cur cur' next : Cursor} {kind : TokenKind} {c : Char} {cs pre rest : List Char}
  {ts : List Token} {ps : List Piece}

theorem advance_previous (cur : Cursor) (cs : List Char) :
    (cur.advance cs).previous = cur.previous := by
  induction cs generalizing cur with
  | nil => rfl
  | cons c cs ih =>
    rw [advance]
    split
    · exact ih _
    · exact ih _

theorem previous_of_trivia (cur : Cursor) (cs : List Char) (h : kind.isTrivia = true) :
    (cur.pass (cur.token kind cs)).previous = cur.previous := by
  have hToken : (cur.token kind cs).isTrivia = true := h
  rw [pass, if_pos hToken, advance_previous]

theorem previous_of_significant (cur : Cursor) (cs : List Char) (h : kind.isTrivia = false) :
    (cur.pass (cur.token kind cs)).previous = some (cur.token kind cs) := by
  have hToken : ¬(cur.token kind cs).isTrivia = true := Bool.eq_false_iff.mp h
  rw [pass, if_neg hToken]

theorem regexAllowed_pass (kind : TokenKind) (cs : List Char)
    (h : kind.isTrivia = true → regexAllowed cur'.previous = regexAllowed cur.previous) :
    regexAllowed (cur'.pass (cur'.token kind cs)).previous =
      regexAllowed (cur.pass (cur.token kind cs)).previous := by
  cases hKind : kind.isTrivia with
  | true => rw [previous_of_trivia _ _ hKind, previous_of_trivia _ _ hKind, h hKind]
  | false =>
    rw [previous_of_significant _ _ hKind, previous_of_significant _ _ hKind]
    rfl

theorem pass_token_pos (cur : Cursor) (kind : TokenKind) (c : Char) (pre : List Char) :
    0 < (cur.pass (cur.token kind (c :: pre))).offset := by
  have hPos := c.utf8Size_pos
  rw [pass_offset, token, Lexeme.chars, String.toList_ofList, extent_cons]
  omega

/-! ## Another place -/

theorem Reads.elsewhere (h : cur.Reads kind c pre rest)
    (hStart : c = '#' → cur.offset = 0 → cur'.offset = 0)
    (hAllowed : c = '/' → kind.isTrivia = false →
      regexAllowed cur'.previous = regexAllowed cur.previous) : cur'.Reads kind c pre rest := by
  cases h with
  | shebang hFirst hMark hRun => exact .shebang (hStart rfl hFirst) hMark hRun
  | lineFeed => exact .lineFeed
  | returnAndFeed => exact .returnAndFeed
  | loneReturn hAlone => exact .loneReturn hAlone
  | whitespace hSpacing hInline hRun => exact .whitespace hSpacing hInline hRun
  | lineComment hMark hRun => exact .lineComment hMark hRun
  | blockComment hBody => exact .blockComment hBody
  | regex hRegex hLine hBlock hBody hFlags =>
    exact .regex ((hAllowed rfl rfl).trans hRegex) hLine hBlock hBody hFlags
  | string hQuote hBody => exact .string hQuote hBody
  | template hBody =>
    rw [Template.scanLiteral_eq_length_iff] at hBody
    exact .template ((Template.scanLiteral_eq_length_iff _ _).mpr hBody)
  | number hDigit hRun => exact .number hDigit hRun
  | word hName hRun => exact .word hName hRun
  | punctuator hDivision hPoint hLongest =>
    refine .punctuator (fun hc => ?_) hPoint hLongest
    obtain ⟨hLine, hBlock, hDenied⟩ := hDivision hc
    exact ⟨hLine, hBlock, (hAllowed hc rfl).trans hDenied⟩

/-- From the cursor on, the text is cut into tokens, and this is what those say that are not
trivia. -/
def Says (cur : Cursor) (cs : List Char) (ps : List Piece) : Prop :=
  ∃ ts, Cuts cur cs ts ∧ significantPieces ts = ps

theorem Says.nil : cur.Says [] [] := ⟨[], .nil, rfl⟩

theorem Says.trivia (hReads : cur.Reads kind c pre rest) (hTrivia : kind.isTrivia = true)
    (h : (cur.pass (cur.token kind (c :: pre))).Says rest ps) :
    cur.Says (c :: (pre ++ rest)) ps := by
  obtain ⟨ts, hCuts, rfl⟩ := h
  exact ⟨_, .cons hReads hCuts, significantPieces_cons_trivia _ ts hTrivia⟩

theorem Says.significant (hReads : cur.Reads kind c pre rest) (hKind : kind.isTrivia = false)
    (h : (cur.pass (cur.token kind (c :: pre))).Says rest ps) :
    cur.Says (c :: (pre ++ rest)) (⟨kind, String.ofList (c :: pre)⟩ :: ps) := by
  obtain ⟨ts, hCuts, rfl⟩ := h
  exact ⟨_, .cons hReads hCuts, significantPieces_cons_significant _ ts hKind⟩

/-- A text says the same at another place, if a slash means the same there or the first token that
is not trivia does not begin with one. -/
theorem Says.elsewhere (h : cur.Says cs ps)
    (hStart : cs.head? = some '#' → cur.offset = 0 → cur'.offset = 0)
    (hAllowed : regexAllowed cur'.previous = regexAllowed cur.previous ∨
      ∀ p ∈ ps.head?, p.text.toList.head? ≠ some '/') : cur'.Says cs ps := by
  obtain ⟨ts, hCuts, rfl⟩ := h
  induction hCuts generalizing cur' with
  | nil => exact .nil
  | @cons cur kind c pre rest ts hReads hRest ih =>
    have hFirst (hc : c = '#') := hStart (congrArg some hc)
    have hPast : (cur.pass (cur.token kind (c :: pre))).offset ≠ 0 :=
      (cur.pass_token_pos kind c pre).ne'
    cases hKind : kind.isTrivia with
    | true =>
      rw [significantPieces_cons_trivia _ _ hKind] at hAllowed ⊢
      have hReads' := hReads.elsewhere hFirst fun _ hNot =>
        absurd (hNot.symm.trans hKind) (by decide)
      exact .trivia hReads' hKind <| ih (fun _ hZero => absurd hZero hPast)
        (hAllowed.imp_left fun hSame => regexAllowed_pass kind _ fun _ => hSame)
    | false =>
      rw [significantPieces_cons_significant _ _ hKind] at hAllowed ⊢
      have hSlash (hc : c = '/') := hAllowed.resolve_right fun hOther =>
        hOther _ rfl (by simp [Lexeme.piece, token, hc])
      have hReads' := hReads.elsewhere hFirst fun hc _ => hSlash hc
      exact .significant hReads' hKind <| ih (fun _ hZero => absurd hZero hPast)
        (.inl (regexAllowed_pass kind _ fun hNot => absurd (hNot.symm.trans hKind) (by decide)))

/-! ## Blanks in front -/

theorem Cuts.exists_reads (h : Cuts cur (c :: cs) ts) :
    ∃ kind pre rest more, cs = pre ++ rest ∧ cur.Reads kind c pre rest ∧
      ts = cur.token kind (c :: pre) :: more ∧
      Cuts (cur.pass (cur.token kind (c :: pre))) rest more := by
  generalize hText : c :: cs = text at h
  cases h with
  | nil => cases hText
  | cons hReads hRest =>
    cases hText
    exact ⟨_, _, _, _, rfl, hReads, rfl, hRest⟩

theorem Reads.eq_of_spacing (hSpacing : isSpacing c = true) (hInline : isLineBreak c = false)
    (h : cur.Reads kind c pre rest) :
    kind = .whitespace ∧ LongestRun (fun d => isSpacing d && !isLineBreak d) pre rest := by
  obtain ⟨run, behind, hSplit, hRun⟩ :=
    exists_longestRun (fun d => isSpacing d && !isLineBreak d) (pre ++ rest)
  have hLexeme := (lexeme_of_reads h).symm.trans (lexeme_spacing hSpacing hInline)
  rw [hSplit, runLength_append hRun] at hLexeme
  injection hLexeme with hLexeme
  obtain ⟨rfl, rfl⟩ := List.append_inj hSplit (congrArg Prod.snd hLexeme)
  exact ⟨congrArg Prod.fst hLexeme, hRun⟩

/-- What begins with a blank is trivia and consists of blanks. -/
theorem Reads.blank (h : cur.Reads kind c pre rest) (hBlank : isSpacing c = true) :
    kind.isTrivia = true ∧ ∀ d ∈ pre, isSpacing d = true := by
  cases h with
  | lineFeed => exact ⟨rfl, by simp⟩
  | returnAndFeed => exact ⟨rfl, List.forall_mem_singleton.mpr (by decide)⟩
  | loneReturn hAlone => exact ⟨rfl, by simp⟩
  | whitespace hSpacing hInline hRun =>
    exact ⟨rfl, fun d hd => (Bool.and_eq_true_iff.mp (hRun.inside d hd)).1⟩
  | string hQuote hBody => rcases hQuote with rfl | rfl <;> exact absurd hBlank (by decide)
  | number hDigit hRun =>
    rcases hDigit with hDigit | ⟨rfl, -⟩
    · exact absurd (hBlank.symm.trans (isSpacing_of_isDigit hDigit)) (by decide)
    · exact absurd hBlank (by decide)
  | word hName hRun =>
    rcases hName with hName | ⟨rfl, -⟩
    · exact absurd (hBlank.symm.trans (isSpacing_of_isNameStart hName)) (by decide)
    · exact absurd hBlank (by decide)
  | punctuator hDivision hPoint hLongest =>
    have hFirst := punctuators_first _ (List.mem_of_find?_eq_some hLongest) c
      (by rw [String.toList_ofList]; rfl)
    exact absurd (hBlank.symm.trans hFirst.1) (by decide)
  | _ => exact absurd hBlank (by decide)

/-- Behind a token that is trivia the same is said as before it. -/
theorem Says.exists_behind (h : cur.Says (c :: cs) ps) (hBlank : isSpacing c = true) :
    ∃ (kind : TokenKind) (pre rest : List Char) (next : Cursor), cs = pre ++ rest ∧
      cur.Reads kind c pre rest ∧ 0 < next.offset ∧
      regexAllowed next.previous = regexAllowed cur.previous ∧ next.Says rest ps := by
  obtain ⟨ts, hCuts, rfl⟩ := h
  obtain ⟨kind, pre, rest, more, rfl, hReads, rfl, hRest⟩ := hCuts.exists_reads
  have hTrivia := (hReads.blank hBlank).1
  refine ⟨kind, pre, rest, _, rfl, hReads, cur.pass_token_pos kind c pre, ?_, more, hRest, ?_⟩
  · rw [previous_of_trivia _ _ hTrivia]
  · exact (significantPieces_cons_trivia _ _ hTrivia).symm

theorem Reads.isSpacing_of_significant (h : cur.Reads kind c pre rest)
    (hKind : kind.isTrivia = false) : isSpacing c = false := by
  refine Bool.eq_false_iff.mpr fun hBlank => ?_
  rw [(h.blank hBlank).1] at hKind
  cases hKind

section Blanks

variable (hNext : 0 < next.offset)
  (hAllowed : regexAllowed next.previous = regexAllowed cur.previous)
include hNext hAllowed

theorem Says.behind_trivia (h : next.Says rest ps) (hReads : cur.Reads kind c pre rest)
    (hTrivia : kind.isTrivia = true) : cur.Says (c :: (pre ++ rest)) ps := by
  refine .trivia hReads hTrivia (h.elsewhere (fun _ hZero => absurd hZero hNext.ne') (.inl ?_))
  rw [previous_of_trivia _ _ hTrivia, hAllowed]

theorem Says.behind_return (h : next.Says cs ps) : cur.Says ('\r' :: cs) ps := by
  by_cases hHead : '\n' ∈ cs.head?
  · obtain ⟨cs, rfl⟩ := List.head?_eq_some_iff.mp hHead
    obtain ⟨kind, pre, rest, behind, rfl, hReads, hPast, hSame, hBehind⟩ :=
      h.exists_behind (by decide)
    obtain ⟨rfl, rfl⟩ := hReads.eq_of_feed
    exact hBehind.behind_trivia hPast (hSame.trans hAllowed) .returnAndFeed rfl
  · exact h.behind_trivia hNext hAllowed (.loneReturn hHead) rfl

theorem Says.behind_inline (h : next.Says cs ps) (hBlank : isSpacing c = true)
    (hInline : isLineBreak c = false) : cur.Says (c :: cs) ps := by
  by_cases hHead : ∃ d ∈ cs.head?, (isSpacing d && !isLineBreak d) = true
  · obtain ⟨d, hd, hJoins⟩ := hHead
    have hOwn : isSpacing d = true ∧ isLineBreak d = false := by simpa using hJoins
    obtain ⟨cs, rfl⟩ := List.head?_eq_some_iff.mp hd
    obtain ⟨kind, pre, rest, behind, rfl, hReads, hPast, hSame, hBehind⟩ :=
      h.exists_behind hOwn.1
    obtain ⟨rfl, hRun⟩ := hReads.eq_of_spacing hOwn.1 hOwn.2
    have hLonger : LongestRun (fun d => isSpacing d && !isLineBreak d) (d :: pre) rest :=
      ⟨List.forall_mem_cons.mpr ⟨hJoins, hRun.inside⟩, hRun.stops⟩
    exact hBehind.behind_trivia hPast (hSame.trans hAllowed)
      (.whitespace hBlank hInline hLonger) rfl
  · have hAlone : LongestRun (fun d => isSpacing d && !isLineBreak d) [] cs :=
      ⟨by simp, fun d hd => Bool.eq_false_iff.mpr fun hJoins => hHead ⟨d, hd, hJoins⟩⟩
    exact h.behind_trivia hNext hAllowed (.whitespace hBlank hInline hAlone) rfl

/-- A blank in front of a text makes a token of its own or becomes part of the first one. -/
theorem Says.behind_blank (h : next.Says cs ps) (hBlank : isSpacing c = true) :
    cur.Says (c :: cs) ps := by
  by_cases hFeed : c = '\n'
  · subst hFeed
    exact h.behind_trivia hNext hAllowed .lineFeed rfl
  by_cases hReturn : c = '\r'
  · subst hReturn
    exact h.behind_return hNext hAllowed
  exact h.behind_inline hNext hAllowed hBlank (by simp [isLineBreak, hFeed, hReturn])

theorem Says.behind_blanks {blanks : List Char} (h : next.Says cs ps)
    (hBlanks : ∀ d ∈ c :: blanks, isSpacing d = true) : cur.Says (c :: (blanks ++ cs)) ps := by
  induction blanks generalizing cur c with
  | nil => exact h.behind_blank hNext hAllowed (hBlanks c (by simp))
  | cons d blanks ih =>
    rw [List.forall_mem_cons] at hBlanks
    exact (ih rfl hBlanks.2).behind_blank hNext hAllowed hBlanks.1

end Blanks

/-! ## Other text behind -/

section Parted

variable {same more more' : List Char} (hParted : ∀ d ∈ more'.head?, isParting d = true)
include hParted

/-- A token that is no blank stays what it is when the text behind it goes on alike and then parts.
A line comment and a lone slash need the next character as well. -/
theorem Reads.parted (h : cur.Reads kind c pre (same ++ more)) (hBlank : isSpacing c = false)
    (hNear : kind = .lineComment ∨ kind = .punctuator ∧ c = '/' ∧ pre = [] →
      (same ++ more').head? = (same ++ more).head?) : cur.Reads kind c pre (same ++ more') := by
  cases h with
  | shebang hStart hMark hRun =>
    exact .shebang hStart hMark ⟨hRun.inside, hNear (.inl rfl) ▸ hRun.stops⟩
  | lineFeed => exact absurd hBlank (by decide)
  | returnAndFeed => exact absurd hBlank (by decide)
  | loneReturn hAlone => exact absurd hBlank (by decide)
  | whitespace hSpacing hInline hRun => exact absurd (hSpacing.symm.trans hBlank) (by decide)
  | lineComment hMark hRun => exact .lineComment hMark ⟨hRun.inside, hNear (.inl rfl) ▸ hRun.stops⟩
  | blockComment hBody => exact .blockComment hBody
  | regex hAllowed hLine hBlock hBody hFlags =>
    exact .regex hAllowed hLine hBlock hBody (hFlags.parted hParted (by decide +kernel))
  | string hQuote hBody => exact .string hQuote hBody
  | template hBody => exact .template hBody
  | number hDigit hRun => exact .number hDigit (hRun.parted hParted (by decide +kernel))
  | word hName hRun => exact .word hName (hRun.parted hParted (by decide +kernel))
  | punctuator hDivision hPoint hLongest =>
    refine .punctuator ?_ ?_ ?_
    · intro hc
      have hHead : (pre ++ (same ++ more')).head? = (pre ++ (same ++ more)).head? := by
        cases pre with
        | nil => exact hNear (.inr ⟨rfl, hc, rfl⟩)
        | cons d pre => rfl
      rw [hHead]
      exact hDivision hc
    · intro hc
      have hPlain := hPoint hc
      rw [← List.append_assoc, Option.any_eq_false] at hPlain ⊢
      exact stops_parted hParted (by decide) hPlain
    · rw [List.find?_eq_some_iff_append] at hLongest ⊢
      obtain ⟨-, before, behind, hSplit, hBefore⟩ := hLongest
      refine ⟨?_, before, behind, hSplit, fun p hp => ?_⟩
      · rw [String.toList_ofList, List.isPrefixOf_iff_prefix, List.cons_prefix_cons]
        exact ⟨rfl, List.prefix_append pre _⟩
      · -- a longer punctuator would reach over the place where the texts part
        have hOther := hBefore p hp
        rw [Bool.not_eq_true', ← Bool.not_eq_true, List.isPrefixOf_iff_prefix] at hOther ⊢
        rw [← List.append_assoc] at hOther ⊢
        have hListed : p ∈ punctuators := hSplit ▸ List.mem_append_left _ hp
        exact fun hFits => hOther (prefix_parted hParted (punctuators_parting p hListed) hFits)

end Parted

end Cursor

end RuleScout
