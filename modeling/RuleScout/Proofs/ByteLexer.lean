import Mathlib.Data.List.Induction
import RuleScout.Proofs.ByteTemplates
import RuleScout.Proofs.Locations
import RuleScout.Proofs.Surroundings
import RuleScout.Proofs.TokenOrder

/-!
# Cutting a text by byte offsets

A text may be cut into tokens by a reader that holds three offsets: where it is, where its line
starts and where the token ends. It looks at the text through slices. It traps at a slice that cuts
through a character or leaves the text, and at a token that takes it no further; an error is placed
by a slice of the text before it. For every text the reader has the same tokens as `lex`, or the
same error at the same place, and so it never traps.
-/

set_option autoImplicit false

namespace RuleScout.Bytewise

open Text Literal Template

/-- What has been read: `pos` is the offset of the next token, `lineStart` the one of its line. -/
structure State where
  pos : Nat := 0
  line : Nat := 1
  lineStart : Nat := 0
  tokens : List Token := []
  deriving DecidableEq, Repr

/-- The line behind a character of a token, and the offset where that line starts. -/
def passChar (part : List Char) (start : Nat) (place : Nat × Nat) (found : Nat × Char) :
    Except Halt (Nat × Nat) := do
  let (line, lineStart) := place
  let (i, c) := found
  if c = '\n' then return (line + 1, start + i + 1)
  else if c = '\r' then
    let behind ← slice part (i + 1) (extent part)
    if behind.head? = some '\n' then return (line, lineStart) else return (line + 1, start + i + 1)
  else return (line, lineStart)

namespace State

/-- Takes the characters up to `stop` for the next token. -/
def push (text : List Char) (st : State) (kind : TokenKind) (stop : Nat) : Except Halt State := do
  let part ← slice text st.pos stop
  let inLine ← slice text st.lineStart st.pos
  let t : Token := ⟨⟨kind, String.ofList part, st.line⟩, st.pos, inLine.length + 1⟩
  let (line, lineStart) ← (charIndices 0 part).foldlM (passChar part st.pos) (st.line, st.lineStart)
  return ⟨stop, line, lineStart, st.tokens ++ [t]⟩

/-- The kind of the next token, which starts with `c`, and the offset where it ends. -/
def tokenEnd (text : List Char) (st : State) (c : Char) : Except Halt (TokenKind × Nat) := do
  let next ← peek text st.pos 1
  if c = '\n' then return (.newline, st.pos + 1)
  else if c = '\r' then
    return (.newline, if next = some '\n' then st.pos + 2 else st.pos + 1)
  else if isSpacing c then
    (.whitespace, ·) <$> scanWhile text st.pos fun d => isSpacing d && !isLineBreak d
  else if c = '/' && next = some '/' then
    (.lineComment, ·) <$> scanWhile text st.pos fun d => !isLineBreak d
  else if c = '/' && next = some '*' then (.blockComment, ·) <$> commentEnd text st.pos
  else if c = '/' && regexAllowed (st.tokens.reverse.find? (!·.isTrivia)) then
    (.regex, ·) <$> regexEnd text st.pos
  else if c = '"' || c = '\'' then (.string, ·) <$> stringEnd text st.pos c
  else if c = '\x60' then (.template, ·) <$> templateEnd text st.pos (st.pos + 1)
  else if c.isDigit || (c = '.' && next.any Char.isDigit) then
    (.number, ·) <$> scanWhile text st.pos isNumberPart
  else if isNameStart c || (c = '#' && next.any isNameStart) then
    let stop ← scanWhile text (st.pos + c.utf8Size) isNamePart
    let word ← slice text st.pos stop
    return (if String.ofList word ∈ keywords then .keyword else .identifier, stop)
  else
    let rest ← slice text st.pos (extent text)
    match punctuators.find? fun p => p.toList.isPrefixOf rest with
    | some p => return (.punctuator, st.pos + p.utf8ByteSize)
    | none => .error (.rejected ⟨.unexpected c, st.pos⟩)

/-- Reads token after token to the end of the text. -/
def run (text : List Char) (st : State) : Except Halt State := do
  match ← peek text st.pos 0 with
  | none => return st
  | some c =>
    let (kind, stop) ← st.tokenEnd text c
    let next ← st.push text kind stop
    if _ : st.pos < next.pos ∧ next.pos ≤ extent text then next.run text
    else .error (.trapped (.stuck st.pos))
termination_by extent text - st.pos

end State

/-- The tokens of a text. The mark of an interpreter is read before all else. -/
def lex (text : List Char) : Except Halt (List Token) := do
  let first : State ←
    if ['#', '!'].isPrefixOf text then
      State.push text {} .lineComment (← scanWhile text 0 (· ≠ '\n'))
    else pure {}
  (·.tokens) <$> first.run text

/-- The offset behind the last line feed. -/
def lineStart (text : List Char) : Nat :=
  match (charIndices 0 text).reverse.find? fun found => found.2 = '\n' with
  | some (i, _) => i + 1
  | none => 0

/-- The line and the column of an error. -/
def position (text : List Char) (offset : Nat) : Except Halt (Nat × Nat) := do
  let before ← slice text 0 (min offset (extent text))
  let inLine ← slice before (lineStart before) (extent before)
  return (before.count '\n' + 1, inLine.length + 1)

/-! ## The end of a token -/

section Answers

variable {text cs : List Char} {st : State} {c : Char}

/-- Where a token ends that ends behind `n` characters, or the error in its place. -/
def State.answer (st : State) (c : Char) (cs : List Char) (x : Except LexError (TokenKind × Nat)) :
    Except Halt (TokenKind × Nat) :=
  ((fun found => (found.1, st.pos + extent (c :: cs.take found.2))) <$> x).mapError .rejected

theorem answer_ite {p : Prop} [Decidable p] {x y : Except Halt (TokenKind × Nat)}
    {u v : Except LexError (TokenKind × Nat)} (hThen : p → x = st.answer c cs u)
    (hElse : ¬p → y = st.answer c cs v) :
    (if p then x else y) = st.answer c cs (if p then u else v) := by
  split
  · exact hThen ‹_›
  · exact hElse ‹_›

theorem answer_ok {n : Nat} {kind : TokenKind} {x : Except Halt Nat}
    (h : x = .ok (st.pos + extent (c :: cs.take n))) :
    (kind, ·) <$> x = st.answer c cs (.ok (kind, n)) := by
  rw [h]
  rfl

/-- What was looked for ends behind a character of one byte, or it has no end. -/
theorem answer_found (kind : TokenKind) (fault : LexFault) (found : Option Nat)
    (hSize : c.utf8Size = 1) :
    (kind, ·) <$> foundOr fault st.pos (found.map fun n => st.pos + 1 + extent (cs.take n)) =
      st.answer c cs (match found with
        | some n => .ok (kind, n)
        | none => .error ⟨fault, st.pos⟩) := by
  cases found with
  | none => rfl
  | some n =>
    apply answer_ok
    rw [Option.map_some, foundOr, extent_cons, hSize, Nat.add_assoc]

theorem comment_answer (h : Stands text st.pos ('/' :: cs)) (hStar : cs.head? = some '*') :
    (TokenKind.blockComment, ·) <$> commentEnd text st.pos =
      st.answer '/' cs (match scanBlockComment cs.tail with
        | some n => .ok (.blockComment, n + 1)
        | none => .error ⟨.unterminatedComment, st.pos⟩) := by
  obtain ⟨tail, rfl⟩ := List.head?_eq_some_iff.mp hStar
  rw [h.commentEnd, List.tail_cons]
  cases scanBlockComment tail with
  | none => rfl
  | some n =>
    have hMarks : extent ('/' :: '*' :: tail.take n) = 2 + extent (tail.take n) :=
      extent_append ['/', '*'] (tail.take n)
    apply answer_ok
    rw [Option.map_some, foundOr, List.take_succ_cons, hMarks, Nat.add_assoc]

theorem template_answer (h : Stands text st.pos ('\x60' :: cs)) :
    (TokenKind.template, ·) <$> templateEnd text st.pos (st.pos + 1) =
      st.answer '\x60' cs ((scanLiteral st.pos cs).map (.template, ·)) := by
  rw [h.templateEnd]
  cases scanLiteral st.pos cs with
  | error e => rfl
  | ok n => exact answer_ok (congrArg Except.ok (Nat.add_assoc st.pos 1 _))

theorem word_answer (h : Stands text st.pos (c :: cs)) :
    (do
      let stop ← scanWhile text (st.pos + c.utf8Size) isNamePart
      let word ← slice text st.pos stop
      return (if String.ofList word ∈ keywords then TokenKind.keyword else .identifier, stop)) =
      st.answer c cs (.ok (if String.ofList (c :: cs.take (runLength isNamePart cs)) ∈ keywords
        then .keyword else .identifier, runLength isNamePart cs)) := by
  have hWord : Stands text st.pos
      ((c :: cs.take (runLength isNamePart cs)) ++ cs.drop (runLength isNamePart cs)) := by
    rwa [List.cons_append, List.take_append_drop]
  rw [h.next.scanWhile, ok_bind, ← take_runLength, Nat.add_assoc, ← extent_cons, hWord.slice_part]
  rfl

theorem punctuator_answer (h : Stands text st.pos (c :: cs)) :
    (do
      let rest ← slice text st.pos (extent text)
      match punctuators.find? fun p => p.toList.isPrefixOf rest with
      | some p => return (TokenKind.punctuator, st.pos + p.utf8ByteSize)
      | none => .error (.rejected ⟨.unexpected c, st.pos⟩)) =
      st.answer c cs (match punctuators.find? fun p => p.toList.isPrefixOf (c :: cs) with
        | some p => .ok (.punctuator, p.length - 1)
        | none => .error ⟨.unexpected c, st.pos⟩) := by
  rw [h.slice_rest, ok_bind]
  cases hFound : punctuators.find? fun p => p.toList.isPrefixOf (c :: cs) with
  | none => rfl
  | some p =>
    obtain ⟨pre, rest, rfl, hLength, hSpelled⟩ := Cursor.punctuator_split hFound
    have hSize : p.utf8ByteSize = extent (c :: (pre ++ rest).take (p.length - 1)) := by
      rw [← hLength, List.take_left, ← extent_toList, hSpelled, String.toList_ofList]
    show Except.ok (TokenKind.punctuator, st.pos + p.utf8ByteSize) = _
    rw [hSize]
    rfl

end Answers

/-! ## The state and the cursor -/

/-- On the line that starts at `first` the rest of the text stands in `column`. -/
def InColumn (text : List Char) (first column : Nat) (rest : List Char) : Prop :=
  ∃ inLine, Stands text first (inLine ++ rest) ∧ column = inLine.length + 1

/-- The state is at the cursor, with the rest of the text behind it. -/
structure Mirrors (text : List Char) (st : State) (cur : Cursor) (rest : List Char) : Prop where
  place : Stands text st.pos rest
  offset : cur.offset = st.pos
  line : cur.line = st.line
  column : InColumn text st.lineStart cur.column rest
  previous : cur.previous = st.tokens.reverse.find? (!·.isTrivia)

theorem Stands.inColumn {text rest : List Char} {i : Nat} (h : Stands text i rest) :
    InColumn text i 1 rest :=
  ⟨[], h, rfl⟩

theorem InColumn.next {text rest : List Char} {first column : Nat} {c : Char}
    (h : InColumn text first column (c :: rest)) : InColumn text first (column + 1) rest := by
  obtain ⟨inLine, hStands, rfl⟩ := h
  exact ⟨inLine ++ [c], by rwa [List.append_assoc], by simp⟩

/-- Behind one character the line and its start are those of the cursor. -/
theorem passChar_eq {text part rest cs : List Char} {start i first : Nat} {cur : Cursor} {c : Char}
    (hText : Stands text (start + i) (c :: (cs ++ rest))) (hPart : Stands part i (c :: cs))
    (hColumn : InColumn text first cur.column (c :: (cs ++ rest))) :
    ∃ (next : Cursor) (first' : Nat), passChar part start (cur.line, first) (i, c) =
        .ok (next.line, first') ∧
      cur.advance (c :: cs) = next.advance cs ∧ InColumn text first' next.column (cs ++ rest) := by
  let broken : Cursor := ⟨cur.offset + c.utf8Size, cur.line + 1, 1, cur.previous⟩
  let inLine : Cursor := ⟨cur.offset + c.utf8Size, cur.line, cur.column + 1, cur.previous⟩
  have hAdvance : cur.advance (c :: cs) =
      if c = '\n' || (c = '\r' && cs.head? ≠ some '\n') then broken.advance cs
      else inLine.advance cs := rfl
  rw [hAdvance, passChar]
  split
  · rename_i hFeed
    subst hFeed
    exact ⟨broken, _, rfl, rfl, hText.next.inColumn⟩
  split
  · rename_i hReturn
    subst hReturn
    have hBehind : Stands part (i + 1) cs := hPart.next
    rw [hBehind.slice_rest, ok_bind]
    split
    · rename_i hNext
      exact ⟨inLine, _, rfl, by simp [hNext], hColumn.next⟩
    · rename_i hNext
      exact ⟨broken, _, rfl, by simp [hNext], hText.next.inColumn⟩
  · rename_i hFeed hReturn
    exact ⟨inLine, _, rfl, by simp [hFeed, hReturn], hColumn.next⟩

theorem foldlM_passChar {text part rest cs : List Char} {start i first : Nat} {cur : Cursor}
    (hText : Stands text (start + i) (cs ++ rest)) (hPart : Stands part i cs)
    (hColumn : InColumn text first cur.column (cs ++ rest)) :
    ∃ first', (charIndices i cs).foldlM (passChar part start) (cur.line, first) =
        .ok ((cur.advance cs).line, first') ∧
      InColumn text first' (cur.advance cs).column rest := by
  induction cs generalizing i first cur with
  | nil => exact ⟨first, rfl, hColumn⟩
  | cons c cs ih =>
    obtain ⟨cur', first', hPass, hAdvance, hNext⟩ := passChar_eq hText hPart hColumn
    rw [charIndices, List.foldlM_cons, hPass, ok_bind, hAdvance]
    exact ih (by rw [← Nat.add_assoc]; exact hText.next) hPart.next hNext

namespace Mirrors

variable {text rest : List Char} {st : State} {cur : Cursor} {c : Char} {cs : List Char}

theorem start (text : List Char) : Mirrors text {} {} text where
  place := ⟨[], rfl, rfl⟩
  offset := rfl
  line := rfl
  column := Stands.inColumn ⟨[], rfl, rfl⟩
  previous := rfl

theorem slice_line (h : Mirrors text st cur rest) :
    ∃ inLine, slice text st.lineStart st.pos = .ok inLine ∧ cur.column = inLine.length + 1 := by
  obtain ⟨inLine, hStands, hColumn⟩ := h.column
  refine ⟨inLine, slice_eq_ok_iff.mpr ⟨rest, hStands, ?_⟩, hColumn⟩
  have hLine := hStands.stop
  have hRest := h.place.stop
  rw [extent_append] at hLine
  omega

/-- A token is taken without a trap, and the state goes with the cursor. -/
theorem push {part : List Char} (h : Mirrors text st cur (part ++ rest)) (kind : TokenKind) :
    ∃ next, st.push text kind (st.pos + extent part) = .ok next ∧
      Mirrors text next (cur.pass (cur.token kind part)) rest ∧
      next.pos = st.pos + extent part ∧ next.tokens = st.tokens ++ [cur.token kind part] := by
  obtain ⟨inLine, hLine, hColumn⟩ := h.slice_line
  have hStart : Stands text (st.pos + 0) (part ++ rest) := h.place
  have hPart : Stands part 0 part := ⟨[], rfl, rfl⟩
  obtain ⟨first, hFold, hInColumn⟩ := foldlM_passChar hStart hPart h.column
  have hToken : cur.token kind part =
      ⟨⟨kind, String.ofList part, st.line⟩, st.pos, inLine.length + 1⟩ := by
    rw [Cursor.token, h.line, h.offset, hColumn]
  have hChars : (cur.token kind part).chars = part := cur.chars_token kind part
  refine ⟨⟨st.pos + extent part, (cur.advance part).line, first,
    st.tokens ++ [cur.token kind part]⟩, ?_, ?_, rfl, rfl⟩
  · rw [State.push, h.place.slice_part, ok_bind, hLine, ok_bind, ← hToken, ← h.line, hFold]
    rfl
  · constructor
    case place => exact h.place.behind part
    case offset => rw [Cursor.pass_offset, hChars, h.offset]
    case line => rw [Cursor.pass_line, hChars]
    case column => rwa [Cursor.pass_column, hChars]
    case previous =>
      rw [List.reverse_append, List.reverse_singleton, List.singleton_append, List.find?_cons,
        ← h.previous]
      have hKind : (cur.token kind part).isTrivia = kind.isTrivia := rfl
      cases hTrivia : kind.isTrivia with
      | true => rw [hKind, hTrivia, Cursor.previous_of_trivia cur part hTrivia]; rfl
      | false => rw [hKind, hTrivia, Cursor.previous_of_significant cur part hTrivia]; rfl

/-- The next token ends where `lexeme` says, or there is the same error. -/
theorem tokenEnd_eq (h : Mirrors text st cur (c :: cs)) (hMark : cur.Unmarked (c :: cs)) :
    st.tokenEnd text c = st.answer c cs (cur.lexeme c cs) := by
  have hNext : (c :: cs)[1]? = cs.head? := by cases cs <;> rfl
  have hShebang : ¬(cur.offset = 0 && c = '#' && cs.head? = some '!') = true := by
    intro hBoth
    have hSplit : (cur.offset = 0 ∧ c = '#') ∧ cs.head? = some '!' := by simpa using hBoth
    obtain ⟨⟨hStart, rfl⟩, hBang⟩ := hSplit
    obtain ⟨tail, rfl⟩ := List.head?_eq_some_iff.mp hBang
    exact hMark hStart (List.prefix_append ['#', '!'] tail)
  rw [State.tokenEnd, h.place.peek, ok_bind, hNext, Cursor.lexeme, if_neg hShebang, ← h.previous,
    h.offset]
  refine answer_ite (fun hFeed => ?lineFeed) fun hFeed =>
    answer_ite (fun hReturn => ?carriageReturn) fun hReturn =>
    answer_ite (fun hSpacing => ?whitespace) fun hSpacing =>
    answer_ite (fun hLine => ?lineComment) fun hLine =>
    answer_ite (fun hBlock => ?blockComment) fun hBlock =>
    answer_ite (fun hRegex => ?regex) fun hRegex =>
    answer_ite (fun hQuote => ?string) fun hQuote =>
    answer_ite (fun hTick => ?template) fun hTick =>
    answer_ite (fun hNumber => ?number) fun hNumber =>
    answer_ite (fun hName => ?word) fun hName => ?punctuator
  case lineFeed =>
    subst hFeed
    rfl
  case carriageReturn =>
    subst hReturn
    split
    · rename_i hFeed
      obtain ⟨tail, rfl⟩ := List.head?_eq_some_iff.mp hFeed
      rfl
    · rfl
  case whitespace =>
    have hInside : (isSpacing c && !isLineBreak c) = true := by
      simp [hSpacing, isLineBreak, hFeed, hReturn]
    exact answer_ok (h.place.run hInside)
  case lineComment =>
    have hInside : (!isLineBreak c) = true := by simp [isLineBreak, hFeed, hReturn]
    exact answer_ok (h.place.run hInside)
  case blockComment =>
    have hMarks : c = '/' ∧ cs.head? = some '*' := by simpa using hBlock
    obtain ⟨rfl, hStar⟩ := hMarks
    exact comment_answer h.place hStar
  case regex =>
    have hSlash : c = '/' ∧ regexAllowed cur.previous = true := by simpa using hRegex
    obtain ⟨rfl, -⟩ := hSlash
    rw [h.place.regexEnd]
    exact answer_found .regex .unterminatedRegex _ rfl
  case string =>
    have hSize : c.utf8Size = 1 := by
      have hEither : c = '"' ∨ c = '\'' := by simpa using hQuote
      rcases hEither with rfl | rfl
      · rfl
      · rfl
    rw [h.place.stringEnd hSize]
    exact answer_found .string .unterminatedString _ hSize
  case template =>
    subst hTick
    exact template_answer h.place
  case number =>
    have hEither : c.isDigit = true ∨ c = '.' ∧ cs.head?.any Char.isDigit = true := by
      simpa using hNumber
    have hInside : isNumberPart c = true := by
      rcases hEither with hDigit | ⟨rfl, -⟩
      · simp [isNumberPart, Char.isAlphanum, hDigit]
      · rfl
    exact answer_ok (h.place.run hInside)
  case word => exact word_answer h.place
  case punctuator => exact punctuator_answer h.place

/-! ## Whole texts -/

/-- The next token takes the reader forward, but not out of the text. -/
theorem push_lexeme {n : Nat} (h : Mirrors text st cur (c :: cs)) (kind : TokenKind) :
    ∃ next, st.push text kind (st.pos + extent (c :: cs.take n)) = .ok next ∧
      Mirrors text next (cur.pass (cur.token kind (c :: cs.take n))) (cs.drop n) ∧
      (st.pos < next.pos ∧ next.pos ≤ extent text) ∧
      next.tokens = st.tokens ++ [cur.token kind (c :: cs.take n)] := by
  have hSplit : Mirrors text st cur ((c :: cs.take n) ++ cs.drop n) := by
    rwa [List.cons_append, List.take_append_drop]
  obtain ⟨next, hPush, hNext, hPos, hTokens⟩ := hSplit.push kind
  refine ⟨next, hPush, hNext, ?_, hTokens⟩
  have hSize := c.utf8Size_pos
  have hStop := hNext.place.stop
  rw [extent_cons] at hPos
  omega

theorem tokens_behind {kind : TokenKind} {n : Nat} {ts : List Token}
    (hLexeme : cur.lexeme c cs = .ok (kind, n)) :
    (ts ++ [cur.token kind (c :: cs.take n)] ++ ·) <$>
        Cursor.tokens 0 (cur.pass (cur.token kind (c :: cs.take n))) (cs.drop n) =
      (ts ++ ·) <$> Cursor.tokens 0 cur (c :: cs) := by
  rw [Cursor.tokens, hLexeme]
  dsimp only
  rw [Cursor.tokens_skip n]
  cases Cursor.tokens 0 (cur.pass (cur.token kind (c :: cs.take n))) (cs.drop n) with
  | error e => rfl
  | ok us => exact congrArg Except.ok (List.append_assoc ts _ us)

/-- From the cursor on, the reader has the same tokens as the cursor, or its error. -/
theorem run_eq {st : State} {cur : Cursor} {rest : List Char} (h : Mirrors text st cur rest)
    (hMark : cur.Unmarked rest) :
    (·.tokens) <$> st.run text =
      ((st.tokens ++ ·) <$> Cursor.tokens 0 cur rest).mapError .rejected := by
  rw [State.run, h.place.peek, ok_bind]
  match rest with
  | [] =>
    rw [Cursor.tokens]
    exact congrArg Except.ok (List.append_nil _).symm
  | c :: cs =>
    rw [List.getElem?_cons_zero]
    dsimp only
    rw [h.tokenEnd_eq hMark]
    cases hLexeme : cur.lexeme c cs with
    | error e =>
      rw [Cursor.tokens, hLexeme]
      rfl
    | ok found =>
      obtain ⟨kind, n⟩ := found
      obtain ⟨next, hPush, hNext, hForward, hTokens⟩ := h.push_lexeme (n := n) kind
      have hAnswer : st.answer c cs (.ok (kind, n)) =
          .ok (kind, st.pos + extent (c :: cs.take n)) := rfl
      rw [hAnswer, ok_bind]
      dsimp only
      have hUnmarked := Cursor.unmarked_pass cur kind c (cs.take n) (cs.drop n)
      rw [hPush, ok_bind, dif_pos hForward, hNext.run_eq hUnmarked, hTokens, tokens_behind hLexeme]
termination_by rest.length

end Mirrors

/-- Cut by offsets, a text has the same tokens or the same error. -/
theorem lex_eq (text : String) : lex text.toList = (RuleScout.lex text).mapError .rejected := by
  have hStart := Mirrors.start text.toList
  have hAll (x : Except LexError (List Token)) : ([] ++ ·) <$> x = x := by cases x <;> rfl
  rw [lex, RuleScout.lex]
  generalize text.toList = cs at hStart ⊢
  split
  · rename_i hMark
    obtain ⟨tail, hTail⟩ := List.isPrefixOf_iff_prefix.mp hMark
    obtain rfl : cs = '#' :: '!' :: tail := hTail.symm
    have hLexeme : ({} : Cursor).lexeme '#' ('!' :: tail) =
        .ok (.lineComment, runLength (· ≠ '\n') ('!' :: tail)) := Cursor.lexeme_shebang rfl rfl
    have hScan := hStart.place.run (p := (· ≠ '\n')) rfl
    obtain ⟨next, hPush, hNext, -, hTokens⟩ := hStart.push_lexeme .lineComment
    rw [hScan, ok_bind, hPush, ok_bind]
    dsimp only
    rw [hNext.run_eq (Cursor.unmarked_pass {} .lineComment '#' _ _), hTokens,
      Mirrors.tokens_behind hLexeme, hAll]
  · rename_i hMark
    rw [List.isPrefixOf_iff_prefix] at hMark
    rw [pure_bind]
    dsimp only
    rw [hStart.run_eq fun _ => hMark, hAll]

/-! ## The place of an error -/

theorem charIndices_append (i : Nat) (xs ys : List Char) :
    charIndices i (xs ++ ys) = charIndices i xs ++ charIndices (i + extent xs) ys := by
  induction xs generalizing i with
  | nil => rfl
  | cons c xs ih =>
    rw [List.cons_append, charIndices, ih, charIndices, extent_cons, Nat.add_assoc,
      List.cons_append]

theorem lineStart_concat (cs : List Char) (c : Char) :
    lineStart (cs ++ [c]) = if c = '\n' then extent cs + 1 else lineStart cs := by
  have hReverse : (charIndices 0 (cs ++ [c])).reverse =
      (extent cs, c) :: (charIndices 0 cs).reverse := by
    rw [charIndices_append, List.reverse_append, Nat.zero_add]
    rfl
  rw [lineStart, hReverse]
  by_cases hFeed : c = '\n'
  · rw [if_pos hFeed, List.find?_cons_of_pos (by simpa using hFeed)]
  · rw [if_neg hFeed, List.find?_cons_of_neg (by simpa using hFeed), lineStart]

/-- What stands behind the last line feed is counted for the column. -/
theorem stands_lineStart (cs : List Char) : Stands cs (lineStart cs) (Line.lastPart cs) := by
  induction cs using List.reverseRecOn with
  | nil => exact ⟨[], rfl, rfl⟩
  | append_singleton cs c ih =>
    rw [lineStart_concat]
    split
    · rename_i hFeed
      subst hFeed
      rw [Line.lastPart_concat_feed]
      exact ⟨cs ++ ['\n'], (List.append_nil _).symm, extent_append cs ['\n']⟩
    · rename_i hOther
      obtain ⟨before, hBefore, hExtent⟩ := ih
      have hNotMem : '\n' ∉ [c] := fun hMem => hOther (List.mem_singleton.mp hMem).symm
      rw [Line.lastPart_append hNotMem]
      refine ⟨before, ?_, hExtent⟩
      rw [← List.append_assoc, ← hBefore]

theorem position_eq (before rest : List Char) :
    position (before ++ rest) (extent before) =
      .ok (SourceUnit.position (before ++ rest) (extent before)) := by
  have hStart : Stands (before ++ rest) 0 (before ++ rest) := ⟨[], rfl, rfl⟩
  have hMin : min (extent before) (extent (before ++ rest)) = 0 + extent before := by
    rw [extent_append]
    omega
  rw [position, hMin, hStart.slice_part, ok_bind, (stands_lineStart before).slice_rest, ok_bind,
    SourceUnit.position_extent]
  rfl

/-- However a text is made up, cutting it by offsets takes no slice that is not there, goes below
zero nowhere and gets stuck nowhere. It has the tokens or the error of `RuleScout.lex`. The error
stands between two characters or at the end, and there it is placed without a trap as well. -/
theorem lex_in_bounds (text : String) :
    (∀ trap, lex text.toList ≠ .error (.trapped trap)) ∧
    lex text.toList = (RuleScout.lex text).mapError .rejected ∧
    ∀ e, RuleScout.lex text = .error e →
      e.offset ≤ text.utf8ByteSize ∧ String.Pos.Raw.IsValid text ⟨e.offset⟩ ∧
      position text.toList e.offset = .ok (SourceUnit.position text.toList e.offset) := by
  have hLex := lex_eq text
  refine ⟨?_, hLex, ?_⟩
  · intro trap hTrapped
    rw [hLex] at hTrapped
    cases hFound : RuleScout.lex text with
    | error e => rw [hFound] at hTrapped; cases hTrapped
    | ok ts => rw [hFound] at hTrapped; cases hTrapped
  · intro e hError
    obtain ⟨us, inner, rest, hFails⟩ := exists_failsBehind hError
    have hText : text.toList = (us.flatMap (·.chars) ++ inner) ++ rest := by
      rw [hFails.text, List.append_assoc]
    rw [hFails.offset, hText]
    generalize us.flatMap (·.chars) ++ inner = before at hText ⊢
    refine ⟨?_, isValid_iff_stands.mpr ⟨rest, before, hText, rfl⟩, position_eq before rest⟩
    rw [← extent_toList, hText, extent_append]
    exact Nat.le_add_right _ _

/-- The escape in the string takes half of the last character, and the text ends in the other. -/
theorem lex_in_bounds_escape :
    let text := "é\x60ü$\x7b'\\é"
    lex text.toList = .error (.rejected ⟨.unterminatedSubstitution, 5⟩) ∧
      String.Pos.Raw.IsValid text ⟨5⟩ ∧ position text.toList 5 = .ok (1, 4) := by
  intro text
  have hError : RuleScout.lex text = .error ⟨.unterminatedSubstitution, 5⟩ := by decide +kernel
  obtain ⟨-, hLex, hPlaced⟩ := lex_in_bounds text
  obtain ⟨-, hValid, hPosition⟩ := hPlaced _ hError
  have hPlace : SourceUnit.position text.toList 5 = (1, 4) := by decide +kernel
  rw [hError] at hLex
  rw [hPlace] at hPosition
  exact ⟨hLex, hValid, hPosition⟩

end RuleScout.Bytewise
