import RuleScout.Source.Lexer
import RuleScout.Proofs.Template

/-!
# What a token looks like

`Reads` lists the tokens by their looks: how a token of each kind is spelled, and what must not
stand behind it. The lexer cuts off exactly these. What a spelling demands of the text behind it
only ever forbids a continuation, so a token stays the same when the text behind it is cut short.
-/

set_option autoImplicit false

namespace RuleScout

open Text Literal

namespace Cursor

/-- At the cursor, `c` and `pre` make up a token of the given kind in front of `rest`. -/
inductive Reads (cur : Cursor) : TokenKind → Char → List Char → List Char → Prop where
  | shebang {pre rest : List Char} (hStart : cur.offset = 0) (hMark : pre.head? = some '!')
      (hRun : LongestRun (· ≠ '\n') pre rest) : Reads cur .lineComment '#' pre rest
  | lineFeed {rest : List Char} : Reads cur .newline '\n' [] rest
  | returnAndFeed {rest : List Char} : Reads cur .newline '\r' ['\n'] rest
  | loneReturn {rest : List Char} (hAlone : '\n' ∉ rest.head?) : Reads cur .newline '\r' [] rest
  | whitespace {c : Char} {pre rest : List Char} (hSpacing : isSpacing c = true)
      (hInline : isLineBreak c = false)
      (hRun : LongestRun (fun d => isSpacing d && !isLineBreak d) pre rest) :
      Reads cur .whitespace c pre rest
  | lineComment {pre rest : List Char} (hMark : pre.head? = some '/')
      (hRun : LongestRun (fun d => !isLineBreak d) pre rest) : Reads cur .lineComment '/' pre rest
  | blockComment {body rest : List Char} (hBody : scanBlockComment body = some body.length) :
      Reads cur .blockComment '/' ('*' :: body) rest
  | regex {body flags rest : List Char} (hAllowed : regexAllowed cur.previous = true)
      (hLine : body.head? ≠ some '/') (hBlock : body.head? ≠ some '*')
      (hBody : scanRegexBody false body = some body.length)
      (hFlags : LongestRun isFlag flags rest) : Reads cur .regex '/' (body ++ flags) rest
  | string {c : Char} {pre rest : List Char} (hQuote : c = '"' ∨ c = '\'')
      (hBody : scanString c pre = some pre.length) : Reads cur .string c pre rest
  | template {pre rest : List Char}
      (hBody : Template.scanLiteral cur.offset pre = .ok pre.length) :
      Reads cur .template '\x60' pre rest
  | number {c : Char} {pre rest : List Char}
      (hDigit : c.isDigit = true ∨ c = '.' ∧ pre.head?.any Char.isDigit = true)
      (hRun : LongestRun isNumberPart pre rest) : Reads cur .number c pre rest
  | word {c : Char} {pre rest : List Char}
      (hStart : isNameStart c = true ∨ c = '#' ∧ pre.head?.any isNameStart = true)
      (hRun : LongestRun isNamePart pre rest) :
      Reads cur (if String.ofList (c :: pre) ∈ keywords then .keyword else .identifier) c pre rest
  | punctuator {c : Char} {pre rest : List Char}
      (hDivision : c = '/' → '/' ∉ (pre ++ rest).head? ∧ '*' ∉ (pre ++ rest).head? ∧
        regexAllowed cur.previous = false)
      (hPoint : c = '.' → (pre ++ rest).head?.any Char.isDigit = false)
      (hLongest : punctuators.find? (fun p => p.toList.isPrefixOf (c :: (pre ++ rest))) =
        some (String.ofList (c :: pre))) : Reads cur .punctuator c pre rest

end Cursor

/-! ## Classes of characters -/

def spacingCodes : List Nat :=
  List.range' 9 5 ++ [0x20, 0x85, 0xA0, 0x1680] ++ List.range' 0x2000 11 ++
    [0x2028, 0x2029, 0x202F, 0x205F, 0x3000, 0xFEFF]

theorem mem_spacingCodes {c : Char} (h : isSpacing c = true) : c.toNat ∈ spacingCodes := by
  simp only [isSpacing, isBlank, Bool.or_eq_true, Bool.and_eq_true, decide_eq_true_eq,
    or_assoc] at h
  simp only [spacingCodes, List.mem_append, List.mem_range'_1, List.mem_cons, List.not_mem_nil,
    or_false, or_assoc]
  simpa only [Nat.lt_succ_iff, Nat.reduceAdd] using h

theorem eq_false_of_code (p : Char → Bool) {codes : List Nat}
    (hCodes : ∀ n ∈ codes, p (Char.ofNat n) = false) {c : Char} (hc : c.toNat ∈ codes) :
    p c = false := by
  have hOwn := hCodes _ hc
  rwa [Char.ofNat_toNat] at hOwn

theorem isSpacing_eq_false {p : Char → Bool}
    (hCodes : ∀ n ∈ spacingCodes, p (Char.ofNat n) = false) {c : Char} (hc : p c = true) :
    isSpacing c = false := by
  cases hSpacing : isSpacing c with
  | false => rfl
  | true =>
    rw [eq_false_of_code p hCodes (mem_spacingCodes hSpacing)] at hc
    cases hc

theorem isSpacing_of_isNameStart {c : Char} (h : isNameStart c = true) : isSpacing c = false :=
  isSpacing_eq_false (by decide +kernel) h

theorem isSpacing_of_isDigit {c : Char} (h : c.isDigit = true) : isSpacing c = false :=
  isSpacing_eq_false (by decide) h

theorem isDigit_of_isNameStart {c : Char} (h : isNameStart c = true) : c.isDigit = false := by
  cases hDigit : c.isDigit with
  | false => rfl
  | true =>
    have hRange : 48 ≤ c.toNat ∧ c.toNat ≤ 57 := by
      simpa [Char.isDigit, UInt32.le_iff_toNat_le] using hDigit
    have hCode : c.toNat ∈ List.range' 48 10 := by
      rw [List.mem_range'_1]
      omega
    rw [eq_false_of_code isNameStart (by decide) hCode] at h
    cases h

theorem quote_ne {c : Char} (h : c = '"' ∨ c = '\'') : c ≠ '\\' := by
  rcases h with rfl | rfl <;> decide

namespace LongestRun

variable {p : Char → Bool} {pre rest : List Char}

theorem head?_eq (h : LongestRun p pre rest) {c : Char} (hHead : (pre ++ rest).head? = some c)
    (hc : p c = true) : pre.head? = some c := by
  cases pre with
  | nil =>
    rw [h.stops c hHead] at hc
    cases hc
  | cons d ds => exact hHead

theorem any_head? (h : LongestRun p pre rest) {q : Char → Bool}
    (hHead : (pre ++ rest).head?.any q = true) (hq : ∀ c, q c = true → p c = true) :
    pre.head?.any q = true := by
  obtain ⟨c, hc, hAny⟩ := (Option.any_eq_true _ _).mp hHead
  rw [h.head?_eq hc (hq c hAny)]
  exact hAny

end LongestRun

theorem any_head?_append {p : Char → Bool} {pre rest : List Char}
    (h : pre.head?.any p = true) : (pre ++ rest).head?.any p = true := by
  cases pre with
  | nil => cases h
  | cons c cs => exact h

namespace Cursor

variable {cur : Cursor} {kind : TokenKind} {n : Nat} {c : Char} {cs pre rest : List Char}

/-! ## What the lexer does, by the first character -/

section Arms

theorem lexeme_shebang (hStart : cur.offset = 0) (hMark : cs.head? = some '!') :
    cur.lexeme '#' cs = .ok (.lineComment, runLength (· ≠ '\n') cs) := by
  simp [lexeme, hStart, hMark]

theorem lexeme_lineFeed : cur.lexeme '\n' cs = .ok (.newline, 0) := by
  simp [lexeme]

theorem lexeme_return :
    cur.lexeme '\r' cs = .ok (.newline, if cs.head? = some '\n' then 1 else 0) := by
  simp [lexeme]

theorem lexeme_spacing (hSpacing : isSpacing c = true) (hInline : isLineBreak c = false) :
    cur.lexeme c cs =
      .ok (.whitespace, runLength (fun d => isSpacing d && !isLineBreak d) cs) := by
  have hMark : c ≠ '#' := ne_of_apply_ne isSpacing (by rw [hSpacing]; decide)
  have hBreak : c ≠ '\n' ∧ c ≠ '\r' := by simpa [isLineBreak] using hInline
  simp [lexeme, hMark, hBreak, hSpacing]

theorem lexeme_lineComment (hNext : cs.head? = some '/') :
    cur.lexeme '/' cs = .ok (.lineComment, runLength (fun d => !isLineBreak d) cs) := by
  have hSpacing : isSpacing '/' = false := by decide
  simp [lexeme, hSpacing, hNext]

theorem lexeme_blockComment_iff :
    cur.lexeme '/' ('*' :: cs) = .ok (kind, n) ↔
      kind = .blockComment ∧ ∃ m, scanBlockComment cs = some m ∧ m + 1 = n := by
  have hSpacing : isSpacing '/' = false := by decide
  cases hScan : scanBlockComment cs with
  | none => simp [lexeme, hSpacing, hScan]
  | some m => simp [lexeme, hSpacing, hScan, eq_comm]

theorem lexeme_regex_iff (hAllowed : regexAllowed cur.previous = true) (hLine : cs.head? ≠ some '/')
    (hBlock : cs.head? ≠ some '*') :
    cur.lexeme '/' cs = .ok (kind, n) ↔ kind = .regex ∧ scanRegex cs = some n := by
  have hSpacing : isSpacing '/' = false := by decide
  cases hScan : scanRegex cs with
  | none => simp [lexeme, hSpacing, hLine, hBlock, hAllowed, hScan]
  | some m => simp [lexeme, hSpacing, hLine, hBlock, hAllowed, hScan, eq_comm]

theorem lexeme_string_iff (hQuote : c = '"' ∨ c = '\'') :
    cur.lexeme c cs = .ok (kind, n) ↔ kind = .string ∧ scanString c cs = some n := by
  have hSpacing : isSpacing '"' = false ∧ isSpacing '\'' = false := by decide
  cases hScan : scanString c cs with
  | none => rcases hQuote with rfl | rfl <;> simp [lexeme, hSpacing, hScan]
  | some m => rcases hQuote with rfl | rfl <;> simp [lexeme, hSpacing, hScan, eq_comm]

theorem lexeme_template_iff :
    cur.lexeme '\x60' cs = .ok (kind, n) ↔
      kind = .template ∧ Template.scanLiteral cur.offset cs = .ok n := by
  have hSpacing : isSpacing '\x60' = false := by decide
  cases hScan : Template.scanLiteral cur.offset cs with
  | error e => simp [lexeme, hSpacing, hScan, Except.map]
  | ok m => simp [lexeme, hSpacing, hScan, Except.map, eq_comm]

/-- No layout, and not the start of a comment or of a literal that has an end of its own. -/
structure Ordinary (cur : Cursor) (c : Char) (cs : List Char) : Prop where
  spacing : isSpacing c = false
  shebang : ¬((cur.offset = 0 ∧ c = '#') ∧ cs.head? = some '!')
  slash : c = '/' → cs.head? ≠ some '/' ∧ cs.head? ≠ some '*' ∧ regexAllowed cur.previous = false
  quote : c ≠ '"' ∧ c ≠ '\'' ∧ c ≠ '\x60'

theorem lexeme_ordinary (h : Ordinary cur c cs) :
    cur.lexeme c cs =
      if c.isDigit = true ∨ c = '.' ∧ cs.head?.any Char.isDigit = true then
        .ok (.number, runLength isNumberPart cs)
      else if isNameStart c = true ∨ c = '#' ∧ cs.head?.any isNameStart = true then
        .ok (if String.ofList (c :: cs.take (runLength isNamePart cs)) ∈ keywords then .keyword
          else .identifier, runLength isNamePart cs)
      else
        match punctuators.find? fun p => p.toList.isPrefixOf (c :: cs) with
        | some p => .ok (.punctuator, p.length - 1)
        | none => .error ⟨.unexpected c, cur.offset⟩ := by
  have hFeed : c ≠ '\n' := ne_of_apply_ne isSpacing (by rw [h.spacing]; decide)
  have hReturn : c ≠ '\r' := ne_of_apply_ne isSpacing (by rw [h.spacing]; decide)
  have hLine : ¬(c = '/' ∧ cs.head? = some '/') := fun hAll => (h.slash hAll.1).1 hAll.2
  have hBlock : ¬(c = '/' ∧ cs.head? = some '*') := fun hAll => (h.slash hAll.1).2.1 hAll.2
  have hRegex : ¬(c = '/' ∧ regexAllowed cur.previous = true) := by
    rintro ⟨hc, hAllowed⟩
    rw [(h.slash hc).2.2] at hAllowed
    cases hAllowed
  simp only [lexeme, Bool.and_eq_true, Bool.or_eq_true, decide_eq_true_eq]
  rw [if_neg h.shebang, if_neg hFeed, if_neg hReturn, h.spacing, if_neg Bool.false_ne_true,
    if_neg hLine, if_neg hBlock, if_neg hRegex, if_neg (not_or.mpr ⟨h.quote.1, h.quote.2.1⟩)]
  exact if_neg h.quote.2.2

end Arms

/-! ## What is cut off is spelled as a token -/

/-- A token of `n + 1` characters that starts with `c` stands in front of the text. -/
def Spelled (cur : Cursor) (kind : TokenKind) (c : Char) (cs : List Char) (n : Nat) : Prop :=
  ∃ pre rest, cs = pre ++ rest ∧ pre.length = n ∧ cur.Reads kind c pre rest

theorem spelled_of_spacing (hSpacing : isSpacing c = true)
    (h : cur.lexeme c cs = .ok (kind, n)) : cur.Spelled kind c cs n := by
  by_cases hFeed : c = '\n'
  · subst hFeed
    cases h.symm.trans lexeme_lineFeed
    exact ⟨[], cs, rfl, rfl, .lineFeed⟩
  by_cases hReturn : c = '\r'
  · subst hReturn
    by_cases hNext : cs.head? = some '\n'
    · obtain ⟨rest, rfl⟩ := List.head?_eq_some_iff.mp hNext
      cases h.symm.trans lexeme_return
      exact ⟨['\n'], rest, rfl, rfl, .returnAndFeed⟩
    · rw [lexeme_return, if_neg hNext] at h
      cases h
      exact ⟨[], cs, rfl, rfl, .loneReturn hNext⟩
  have hInline : isLineBreak c = false := by simp [isLineBreak, hFeed, hReturn]
  obtain ⟨pre, rest, rfl, hRun⟩ :=
    exists_longestRun (fun d => isSpacing d && !isLineBreak d) cs
  rw [lexeme_spacing hSpacing hInline, runLength_append hRun] at h
  cases h
  exact ⟨pre, rest, rfl, rfl, .whitespace hSpacing hInline hRun⟩

theorem spelled_of_slash
    (hAllowed : cs.head? = some '/' ∨ cs.head? = some '*' ∨ regexAllowed cur.previous = true)
    (h : cur.lexeme '/' cs = .ok (kind, n)) : cur.Spelled kind '/' cs n := by
  by_cases hLine : cs.head? = some '/'
  · obtain ⟨pre, rest, rfl, hRun⟩ := exists_longestRun (fun d => !isLineBreak d) cs
    rw [lexeme_lineComment hLine, runLength_append hRun] at h
    cases h
    exact ⟨pre, rest, rfl, rfl, .lineComment (hRun.head?_eq hLine (by decide)) hRun⟩
  by_cases hBlock : cs.head? = some '*'
  · obtain ⟨tail, rfl⟩ := List.head?_eq_some_iff.mp hBlock
    obtain ⟨rfl, m, hScan, rfl⟩ := lexeme_blockComment_iff.mp h
    obtain ⟨body, rest, rfl, rfl, hBody⟩ := scanBlockComment_delimited.split hScan
    exact ⟨'*' :: body, rest, rfl, rfl, .blockComment hBody⟩
  have hRegex := (hAllowed.resolve_left hLine).resolve_left hBlock
  obtain ⟨rfl, hScan⟩ := (lexeme_regex_iff hRegex hLine hBlock).mp h
  obtain ⟨body, flags, rest, rfl, rfl, hBody, hFlags⟩ := (scanRegex_eq_iff _ _).mp hScan
  cases body with
  | nil => cases hBody
  | cons d ds => exact ⟨_, rest, rfl, rfl, .regex hRegex hLine hBlock hBody hFlags⟩

theorem punctuators_nonempty : ∀ p ∈ punctuators, p.toList ≠ [] := by decide

theorem punctuator_split {p : String}
    (hFound : punctuators.find? (fun p => p.toList.isPrefixOf (c :: cs)) = some p) :
    ∃ pre rest, cs = pre ++ rest ∧ pre.length = p.length - 1 ∧ p = String.ofList (c :: pre) := by
  have hNonempty := punctuators_nonempty p (List.mem_of_find?_eq_some hFound)
  have hPrefix := List.find?_some hFound
  rw [List.isPrefixOf_iff_prefix] at hPrefix
  obtain ⟨d, pre, hSpelled⟩ := List.exists_cons_of_ne_nil hNonempty
  rw [hSpelled, List.cons_prefix_cons] at hPrefix
  obtain ⟨rfl, rest, rfl⟩ := hPrefix
  refine ⟨pre, rest, rfl, ?_, ?_⟩
  · rw [← String.length_toList, hSpelled, List.length_cons, Nat.add_sub_cancel]
  · rw [← hSpelled, String.ofList_toList]

theorem spelled_of_ordinary (hOrdinary : Ordinary cur c cs)
    (h : cur.lexeme c cs = .ok (kind, n)) : cur.Spelled kind c cs n := by
  rw [lexeme_ordinary hOrdinary] at h
  by_cases hNumber : c.isDigit = true ∨ c = '.' ∧ cs.head?.any Char.isDigit = true
  · obtain ⟨pre, rest, rfl, hRun⟩ := exists_longestRun isNumberPart cs
    rw [if_pos hNumber, runLength_append hRun] at h
    cases h
    have hPart (d : Char) (hd : d.isDigit = true) : isNumberPart d = true := by
      simp [isNumberPart, Char.isAlphanum, hd]
    exact ⟨pre, rest, rfl, rfl,
      .number (hNumber.imp_right fun ⟨hc, hNext⟩ => ⟨hc, hRun.any_head? hNext hPart⟩) hRun⟩
  rw [if_neg hNumber] at h
  by_cases hWord : isNameStart c = true ∨ c = '#' ∧ cs.head?.any isNameStart = true
  · obtain ⟨pre, rest, rfl, hRun⟩ := exists_longestRun isNamePart cs
    rw [if_pos hWord, runLength_append hRun, List.take_left] at h
    cases h
    have hPart (d : Char) (hd : isNameStart d = true) : isNamePart d = true := by
      simp only [isNameStart, isNamePart, Bool.or_eq_true] at hd ⊢
      grind
    exact ⟨pre, rest, rfl, rfl,
      .word (hWord.imp_right fun ⟨hc, hNext⟩ => ⟨hc, hRun.any_head? hNext hPart⟩) hRun⟩
  rw [if_neg hWord] at h
  split at h
  · rename_i p hFound
    obtain ⟨pre, rest, rfl, hLength, rfl⟩ := punctuator_split hFound
    rw [← hLength] at h
    cases h
    refine ⟨pre, rest, rfl, rfl, .punctuator hOrdinary.slash ?_ hFound⟩
    intro hc
    rw [not_or, not_and] at hNumber
    simpa using hNumber.2 hc
  · cases h

theorem spelled_of_lexeme (h : cur.lexeme c cs = .ok (kind, n)) : cur.Spelled kind c cs n := by
  by_cases hShebang : (cur.offset = 0 ∧ c = '#') ∧ cs.head? = some '!'
  · obtain ⟨⟨hStart, rfl⟩, hMark⟩ := hShebang
    obtain ⟨pre, rest, rfl, hRun⟩ := exists_longestRun (· ≠ '\n') cs
    rw [lexeme_shebang hStart hMark, runLength_append hRun] at h
    cases h
    exact ⟨pre, rest, rfl, rfl, .shebang hStart (hRun.head?_eq hMark (by decide)) hRun⟩
  by_cases hSpacing : isSpacing c = true
  · exact spelled_of_spacing hSpacing h
  by_cases hSlash : c = '/' ∧ (cs.head? = some '/' ∨ cs.head? = some '*' ∨
      regexAllowed cur.previous = true)
  · obtain ⟨rfl, hAllowed⟩ := hSlash
    exact spelled_of_slash hAllowed h
  by_cases hQuote : c = '"' ∨ c = '\''
  · obtain ⟨rfl, hScan⟩ := (lexeme_string_iff hQuote).mp h
    obtain ⟨pre, rest, rfl, rfl, hBody⟩ := (scanString_delimited c (quote_ne hQuote)).split hScan
    exact ⟨pre, rest, rfl, rfl, .string hQuote hBody⟩
  by_cases hTick : c = '\x60'
  · subst hTick
    obtain ⟨rfl, hScan⟩ := lexeme_template_iff.mp h
    obtain ⟨pre, rest, rfl, rfl, hBody⟩ := Template.scanLiteral_split hScan
    exact ⟨pre, rest, rfl, rfl, .template hBody⟩
  rw [not_or] at hQuote
  apply spelled_of_ordinary ⟨by simpa using hSpacing, hShebang, ?_, hQuote.1, hQuote.2, hTick⟩ h
  intro hc
  simpa [hc] using hSlash

/-! ## What is spelled as a token is cut off -/

theorem Ordinary.of_ne (hSpacing : isSpacing c = false) (hMark : c = '#' → cs.head? ≠ some '!')
    (hOther : ∀ d ∈ ['/', '"', '\'', '\x60'], c ≠ d) : Ordinary cur c cs where
  spacing := hSpacing
  shebang hAll := hMark hAll.1.2 hAll.2
  slash hSlash := absurd hSlash (hOther '/' (by simp))
  quote := ⟨hOther _ (by simp), hOther _ (by simp), hOther _ (by simp)⟩

theorem ordinary_number (hDigit : c.isDigit = true ∨ c = '.') : Ordinary cur c cs := by
  have hOther : ∀ d ∈ ['#', '/', '"', '\'', '\x60'], ¬(d.isDigit = true ∨ d = '.') := by
    simp only [List.forall_mem_cons, List.not_mem_nil, false_imp_iff, implies_true, and_true]
    decide
  apply Ordinary.of_ne
  · rcases hDigit with hDigit | rfl
    · exact isSpacing_of_isDigit hDigit
    · decide
  · rintro rfl
    exact absurd hDigit (hOther '#' (by simp))
  · rintro d hd rfl
    exact hOther c (List.mem_cons_of_mem _ hd) hDigit

theorem ordinary_word (hStart : isNameStart c = true ∨ c = '#' ∧ cs.head?.any isNameStart = true) :
    Ordinary cur c cs := by
  have hOther : ∀ d ∈ ['/', '"', '\'', '\x60'], ¬(isNameStart d = true ∨ d = '#') := by
    simp only [List.forall_mem_cons, List.not_mem_nil, false_imp_iff, implies_true, and_true]
    decide
  apply Ordinary.of_ne
  · rcases hStart with hStart | ⟨rfl, -⟩
    · exact isSpacing_of_isNameStart hStart
    · decide
  · rintro rfl hNext
    rw [hNext] at hStart
    revert hStart
    decide
  · rintro d hd rfl
    exact hOther c hd (hStart.imp_right (·.1))

theorem punctuators_first : ∀ p ∈ punctuators, ∀ d ∈ p.toList.head?, isSpacing d = false ∧
    d ≠ '#' ∧ (d ≠ '"' ∧ d ≠ '\'' ∧ d ≠ '\x60') ∧ d.isDigit = false ∧ isNameStart d = false := by
  have hAll : punctuators.all (fun p => p.toList.head?.all fun d => decide (isSpacing d = false ∧
      d ≠ '#' ∧ (d ≠ '"' ∧ d ≠ '\'' ∧ d ≠ '\x60') ∧ d.isDigit = false ∧
      isNameStart d = false)) = true := by
    decide +kernel
  intro p hp d hd
  have hOwn := List.all_eq_true.mp hAll p hp
  rw [Option.mem_def.mp hd] at hOwn
  exact of_decide_eq_true hOwn

theorem lexeme_of_reads (h : cur.Reads kind c pre rest) :
    cur.lexeme c (pre ++ rest) = .ok (kind, pre.length) := by
  cases h with
  | shebang hStart hMark hRun =>
    rw [lexeme_shebang hStart (by simp [List.head?_append, hMark]), runLength_append hRun]
  | lineFeed => exact lexeme_lineFeed
  | returnAndFeed => exact lexeme_return
  | loneReturn hAlone =>
    have hNext : ¬rest.head? = some '\n' := hAlone
    rw [List.nil_append, lexeme_return, if_neg hNext]
    rfl
  | whitespace hSpacing hInline hRun =>
    rw [lexeme_spacing hSpacing hInline, runLength_append hRun]
  | lineComment hMark hRun =>
    rw [lexeme_lineComment (by simp [List.head?_append, hMark]), runLength_append hRun]
  | blockComment hBody =>
    exact lexeme_blockComment_iff.mpr ⟨rfl, _, scanBlockComment_delimited.append hBody _, rfl⟩
  | @regex body flags rest hAllowed hLine hBlock hBody hFlags =>
    cases body with
    | nil => cases hBody
    | cons d ds =>
      apply (lexeme_regex_iff (by exact hAllowed) ?_ ?_).mpr
      · exact ⟨rfl, (scanRegex_eq_iff _ _).mpr ⟨_, _, _, rfl, rfl, hBody, hFlags⟩⟩
      · exact hLine
      · exact hBlock
  | string hQuote hBody =>
    have hScan := (scanString_delimited c (quote_ne hQuote)).append hBody rest
    exact (lexeme_string_iff hQuote).mpr ⟨rfl, hScan⟩
  | template hBody => exact lexeme_template_iff.mpr ⟨rfl, Template.scanLiteral_append hBody _⟩
  | number hDigit hRun =>
    have hNumber : c.isDigit = true ∨ c = '.' ∧ (pre ++ rest).head?.any Char.isDigit = true :=
      hDigit.imp_right fun ⟨hc, hNext⟩ => ⟨hc, any_head?_append hNext⟩
    rw [lexeme_ordinary (ordinary_number (hDigit.imp_right (·.1))), if_pos hNumber,
      runLength_append hRun]
  | word hStart hRun =>
    have hWord : isNameStart c = true ∨ c = '#' ∧ (pre ++ rest).head?.any isNameStart = true :=
      hStart.imp_right fun ⟨hc, hNext⟩ => ⟨hc, any_head?_append hNext⟩
    have hNumber : ¬(c.isDigit = true ∨ c = '.' ∧ (pre ++ rest).head?.any Char.isDigit = true) := by
      rintro (hDigit | ⟨rfl, -⟩)
      · rcases hStart with hStart | ⟨rfl, -⟩
        · rw [isDigit_of_isNameStart hStart] at hDigit
          cases hDigit
        · cases hDigit
      · rcases hStart with hStart | ⟨hMark, -⟩
        · exact absurd hStart (by decide)
        · exact absurd hMark (by decide)
    rw [lexeme_ordinary (ordinary_word hWord), if_neg hNumber, if_pos hWord, runLength_append hRun,
      List.take_left]
  | punctuator hDivision hPoint hLongest =>
    have hFirst := punctuators_first _ (List.mem_of_find?_eq_some hLongest) c
      (by rw [String.toList_ofList]; rfl)
    obtain ⟨hSpacing, hMark, hQuote, hDigit, hName⟩ := hFirst
    have hOrdinary : Ordinary cur c (pre ++ rest) :=
      ⟨hSpacing, fun hAll => hMark hAll.1.2, hDivision, hQuote⟩
    have hNumber : ¬(c.isDigit = true ∨ c = '.' ∧ (pre ++ rest).head?.any Char.isDigit = true) := by
      rintro (hOwn | ⟨rfl, hNext⟩)
      · rw [hDigit] at hOwn
        cases hOwn
      · rw [hPoint rfl] at hNext
        cases hNext
    have hWord : ¬(isNameStart c = true ∨ c = '#' ∧ (pre ++ rest).head?.any isNameStart = true) := by
      rintro (hOwn | ⟨rfl, -⟩)
      · rw [hName] at hOwn
        cases hOwn
      · exact hMark rfl
    rw [lexeme_ordinary hOrdinary, if_neg hNumber, if_neg hWord, hLongest]
    simp

/-- The lexer cuts off exactly what is spelled as a token. -/
theorem lexeme_eq_ok_iff : cur.lexeme c cs = .ok (kind, n) ↔ cur.Spelled kind c cs n := by
  constructor
  · exact spelled_of_lexeme
  · rintro ⟨pre, rest, rfl, rfl, hReads⟩
    exact lexeme_of_reads hReads

theorem Reads.body_of_template (h : cur.Reads kind c pre rest) (hKind : kind = .template) :
    c = '\x60' ∧ Template.scanLiteral cur.offset pre = .ok pre.length := by
  cases h with
  | template hBody => exact ⟨rfl, hBody⟩
  | word hStart hRun => split at hKind <;> cases hKind
  | _ => cases hKind

/-! ## Cutting the text short -/

/-- A token stays what it is when the text behind it is cut short. -/
theorem Reads.shorten {less : List Char} (h : cur.Reads kind c pre rest) (hLess : less <+: rest) :
    cur.Reads kind c pre less := by
  cases h with
  | shebang hStart hMark hRun => exact .shebang hStart hMark (hRun.shorten hLess)
  | lineFeed => exact .lineFeed
  | returnAndFeed => exact .returnAndFeed
  | loneReturn hAlone => exact .loneReturn fun hNext => hAlone (mem_head?_of_shorter hLess _ hNext)
  | whitespace hSpacing hInline hRun => exact .whitespace hSpacing hInline (hRun.shorten hLess)
  | lineComment hMark hRun => exact .lineComment hMark (hRun.shorten hLess)
  | blockComment hBody => exact .blockComment hBody
  | regex hAllowed hLine hBlock hBody hFlags =>
    exact .regex hAllowed hLine hBlock hBody (hFlags.shorten hLess)
  | string hQuote hBody => exact .string hQuote hBody
  | template hBody => exact .template hBody
  | number hDigit hRun => exact .number hDigit (hRun.shorten hLess)
  | word hStart hRun => exact .word hStart (hRun.shorten hLess)
  | punctuator hDivision hPoint hLongest =>
    have hAhead := mem_head?_of_shorter ((List.prefix_append_right_inj pre).mpr hLess)
    refine .punctuator ?_ ?_ ?_
    · intro hc
      obtain ⟨hLine, hBlock, hAllowed⟩ := hDivision hc
      exact ⟨fun hNext => hLine (hAhead _ hNext), fun hNext => hBlock (hAhead _ hNext), hAllowed⟩
    · intro hc
      have hNext := hPoint hc
      obtain ⟨more, rfl⟩ := hLess
      rw [← Bool.not_eq_true] at hNext ⊢
      rw [← List.append_assoc] at hNext
      exact fun hDigit => hNext (any_head?_append hDigit)
    · rw [List.find?_eq_some_iff_append] at hLongest ⊢
      obtain ⟨-, before, behind, hSplit, hBefore⟩ := hLongest
      refine ⟨?_, before, behind, hSplit, fun p hp => ?_⟩
      · rw [String.toList_ofList, List.isPrefixOf_iff_prefix, List.cons_prefix_cons]
        exact ⟨rfl, List.prefix_append pre less⟩
      · -- a punctuator that fits the shorter text fits the longer one too
        have hLonger := hBefore p hp
        rw [Bool.not_eq_true', ← Bool.not_eq_true, List.isPrefixOf_iff_prefix] at hLonger ⊢
        intro hFits
        apply hLonger (hFits.trans ?_)
        rw [List.cons_prefix_cons, List.prefix_append_right_inj]
        exact ⟨rfl, hLess⟩

end Cursor

end RuleScout
