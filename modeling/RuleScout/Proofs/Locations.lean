import RuleScout.Proofs.Fallible
import RuleScout.Proofs.LinePlaces
import RuleScout.Proofs.Positions

/-!
# Places of tokens and of errors

Lines are counted by the cursor, by the layout of lines, for the end of a token and for the place
of an error. The cursor alone takes a carriage return without a line feed for the end of a line, so
the counts agree as long as there is none in a token further up.
-/

set_option autoImplicit false

namespace RuleScout

open Text Line Literal

/-- Some carriage return is not followed by a line feed. -/
def hasLoneReturn : List Char → Bool
  | [] => false
  | c :: cs => (c = '\r' && cs.head? ≠ some '\n') || hasLoneReturn cs

section Returns

variable {c : Char} {cs xs ys : List Char}

theorem hasLoneReturn_cons :
    hasLoneReturn (c :: cs) = false ↔
      (c = '\r' → cs.head? = some '\n') ∧ hasLoneReturn cs = false := by
  rw [hasLoneReturn, Bool.or_eq_false_iff, and_congr_left_iff]
  intro _
  by_cases hc : c = '\r'
  · simp [hc]
  · simp [hc]

theorem hasLoneReturn_append (hx : hasLoneReturn xs = false) (hy : hasLoneReturn ys = false) :
    hasLoneReturn (xs ++ ys) = false := by
  induction xs with
  | nil => exact hy
  | cons c xs ih =>
    rw [hasLoneReturn_cons] at hx
    rw [List.cons_append, hasLoneReturn_cons]
    refine ⟨fun hc => ?_, ih hx.2⟩
    rw [List.head?_append, hx.1 hc]
    rfl

theorem hasLoneReturn_flatMap {ts : List Token} (h : ∀ t ∈ ts, hasLoneReturn t.chars = false) :
    hasLoneReturn (ts.flatMap (·.chars)) = false := by
  induction ts with
  | nil => rfl
  | cons t ts ih =>
    rw [List.forall_mem_cons] at h
    exact hasLoneReturn_append h.1 (ih h.2)

/-- A character that is no line feed is not what a return waits for. -/
theorem hasLoneReturn_of_concat (hc : c ≠ '\n') (h : hasLoneReturn (cs ++ [c]) = false) :
    hasLoneReturn cs = false := by
  induction cs with
  | nil => rfl
  | cons d cs ih =>
    rw [List.cons_append, hasLoneReturn_cons] at h
    rw [hasLoneReturn_cons]
    refine ⟨fun hd => ?_, ih h.2⟩
    cases cs with
    | nil => exact absurd (Option.some.inj (h.1 hd)) hc
    | cons e cs => exact h.1 hd

theorem return_not_mem_lastPart (h : hasLoneReturn cs = false) : '\r' ∉ lastPart cs := by
  induction cs with
  | nil => exact List.not_mem_nil
  | cons c cs ih =>
    rw [hasLoneReturn_cons] at h
    by_cases hFeed : '\n' ∈ c :: cs
    · rw [lastPart_cons hFeed]
      exact ih h.2
    · have hRest : '\n' ∉ cs := fun hMem => hFeed (List.mem_cons_of_mem c hMem)
      rw [lastPart_eq_self hFeed, List.mem_cons, not_or]
      refine ⟨?_, lastPart_eq_self hRest ▸ ih h.2⟩
      rintro rfl
      exact hRest (List.mem_of_head? (h.1 rfl))

theorem hasLoneReturn_of_not_mem (h : '\r' ∉ cs) : hasLoneReturn cs = false := by
  induction cs with
  | nil => rfl
  | cons c cs ih =>
    rw [List.mem_cons, not_or] at h
    rw [hasLoneReturn_cons]
    exact ⟨fun hc => absurd hc.symm h.1, ih h.2⟩

end Returns

namespace Cursor

variable {cur : Cursor} {cs before : List Char} {us vs : List Token} {t : Token}

/-- The cursor stands behind the text, when only line feeds separate lines. -/
structure Follows (cur : Cursor) (before : List Char) : Prop where
  line : cur.line = before.count '\n' + 1
  column : cur.column = (lastPart before).length + 1

theorem follows_start : ({} : Cursor).Follows [] := ⟨rfl, rfl⟩

theorem Follows.advance (h : cur.Follows before) (hLone : hasLoneReturn cs = false) :
    (cur.advance cs).Follows (before ++ cs) := by
  induction cs generalizing cur before with
  | nil => rwa [List.append_nil]
  | cons c cs ih =>
    rw [hasLoneReturn_cons] at hLone
    rw [Cursor.advance, List.append_cons]
    by_cases hFeed : c = '\n'
    · subst hFeed
      rw [if_pos (by simp)]
      exact ih ⟨by simp [h.line], by simp [lastPart_concat_feed]⟩ hLone.2
    · have hReturn : ¬(c = '\n' || (c = '\r' && cs.head? ≠ some '\n')) = true := by
        simpa [hFeed] using hLone.1
      have hInline : '\n' ∉ [c] := by simpa using Ne.symm hFeed
      rw [if_neg hReturn]
      exact ih ⟨by simp [h.line, hFeed], by simp [lastPart_append hInline, h.column]⟩ hLone.2

theorem Follows.pass (h : cur.Follows before) (hLone : hasLoneReturn t.chars = false) :
    (cur.pass t).Follows (before ++ t.chars) := by
  have hAdvance := h.advance hLone
  rw [Cursor.pass]
  split
  · exact hAdvance
  · exact ⟨hAdvance.line, hAdvance.column⟩

theorem Follows.foldl (h : cur.Follows before) (hLone : ∀ t ∈ us, hasLoneReturn t.chars = false) :
    (us.foldl Cursor.pass cur).Follows (before ++ us.flatMap (·.chars)) := by
  induction us generalizing cur before with
  | nil => rwa [List.flatMap_nil, List.append_nil]
  | cons t us ih =>
    rw [List.forall_mem_cons] at hLone
    rw [List.foldl_cons, List.flatMap_cons, ← List.append_assoc]
    exact ih (h.pass hLone.1) hLone.2

/-- A token starts where the cursor stands. -/
theorem Cuts.place_eq (h : Cuts cur cs (us ++ t :: vs)) :
    t.line = (us.foldl Cursor.pass cur).line ∧ t.column = (us.foldl Cursor.pass cur).column := by
  obtain ⟨pre, rest, -, -, hRest⟩ := h.split
  cases hRest
  exact ⟨rfl, rfl⟩

theorem Reads.last_ne_feed {kind : TokenKind} {c : Char} {pre rest : List Char}
    (h : cur.Reads kind c pre rest) (hKind : kind ≠ .newline) :
    (c :: pre).getLast? ≠ some '\n' := by
  intro hLast
  by_cases hMark : cur.IsMark c pre
  · obtain ⟨hStart, rfl, hBang⟩ := hMark
    have hHead : (pre ++ rest).head? = some '!' := by
      rw [List.head?_append, hBang]
      rfl
    -- the mark of an interpreter ends in front of the line feed
    have hRun := (lexeme_of_reads h).symm.trans (lexeme_shebang hStart hHead)
    have hLength : pre.length = ((pre ++ rest).takeWhile (· ≠ '\n')).length :=
      congrArg Prod.snd (Except.ok.inj hRun)
    have hWhole : pre = (pre ++ rest).takeWhile (· ≠ '\n') :=
      (List.prefix_of_prefix_length_le (List.prefix_append pre rest) (List.takeWhile_prefix _)
        hLength.le).eq_of_length hLength
    have hInside : pre.all (· ≠ '\n') = true := by
      rw [hWhole]
      exact List.all_takeWhile
    rcases List.mem_cons.mp (List.mem_of_getLast? hLast) with hFeed | hFeed
    · cases hFeed
    · simpa using List.all_eq_true.mp hInside _ hFeed
  · exact absurd (h.last_inline hMark hKind _ hLast) (by decide)

theorem Reads.chars_of_newline {kind : TokenKind} {c : Char} {pre rest : List Char}
    (h : cur.Reads kind c pre rest) (hKind : kind = .newline) :
    c :: pre = ['\n'] ∨ c :: pre = ['\r', '\n'] ∨ c :: pre = ['\r'] := by
  cases h with
  | lineFeed => exact .inl rfl
  | returnAndFeed => exact .inr (.inl rfl)
  | loneReturn hAlone => exact .inr (.inr rfl)
  | word hStart hRun => split at hKind <;> cases hKind
  | _ => cases hKind

end Cursor

/-! ## The line of a token -/

/-- What is known of the place of the token behind `us`. -/
structure Located (u : SourceUnit) (us : List Token) (t : Token) : Prop where
  line : ∃ l, u.lines[t.line - 1]? = some l ∧ l.number = t.line ∧
    dropReturn (firstPart t.chars) <+: l.chars.drop (t.column - 1) ∧
    (t.kind = .newline → hasLoneReturn t.chars = false → l.chars.length + 1 = t.column)
  stop : t.kind ≠ .newline → hasLoneReturn t.chars = false →
    t.endLine = ((us.foldl Cursor.pass {}).advance t.chars.dropLast).line

section Located

variable {u : SourceUnit} {path text : String} {ts us vs : List Token} {t : Token}

theorem text_around (h : lex text = .ok (us ++ t :: vs)) :
    text.toList = us.flatMap (·.chars) ++ (t.chars ++ vs.flatMap (·.chars)) := by
  rw [← (cuts_of_lex h).flatMap_chars, List.flatMap_append, List.flatMap_cons]

theorem follows_of_lex (hLone : ∀ s ∈ us, hasLoneReturn s.chars = false) :
    (us.foldl Cursor.pass {}).Follows (us.flatMap (·.chars)) :=
  Cursor.follows_start.foldl hLone

theorem place_of_lex (h : lex text = .ok (us ++ t :: vs))
    (hLone : ∀ s ∈ us, hasLoneReturn s.chars = false) :
    t.line = (us.flatMap (·.chars)).count '\n' + 1 ∧
      t.column = (lastPart (us.flatMap (·.chars))).length + 1 := by
  obtain ⟨hLine, hColumn⟩ := (cuts_of_lex h).place_eq
  have hFollows := follows_of_lex hLone
  exact ⟨hLine.trans hFollows.line, hColumn.trans hFollows.column⟩

theorem endLine_eq (h : lex text = .ok (us ++ t :: vs))
    (hFollows : (us.foldl Cursor.pass {}).Follows (us.flatMap (·.chars)))
    (hKind : t.kind ≠ .newline) (hLone : hasLoneReturn t.chars = false) :
    t.endLine = ((us.foldl Cursor.pass {}).advance t.chars.dropLast).line := by
  obtain ⟨c, pre, rest, -, hChars, hReads⟩ := (cuts_of_lex h).reads
  obtain ⟨hLine, -⟩ := (cuts_of_lex h).place_eq
  have hLast := hReads.last_ne_feed hKind
  rw [← hChars] at hLast
  obtain ⟨d, hd⟩ := Option.ne_none_iff_exists'.mp
    (mt List.getLast?_eq_none_iff.mp ((cuts_of_lex h).chars_ne_nil t (by simp)))
  obtain ⟨init, hInit⟩ := List.getLast?_eq_some_iff.mp hd
  have hFeed : d ≠ '\n' := by
    rintro rfl
    exact hLast hd
  rw [hInit] at hLone
  have hAdvance := hFollows.advance (hasLoneReturn_of_concat hFeed hLone)
  rw [Lexeme.endLine, hInit, List.dropLast_concat, hAdvance.line, hLine, hFollows.line]
  simp only [List.count_append, List.count_singleton, beq_iff_eq, hFeed, if_false]
  omega

theorem located_of_parse (h : SourceUnit.parse path text = .ok u)
    (hTokens : u.tokens.toList = us ++ t :: vs)
    (hLone : ∀ s ∈ us, hasLoneReturn s.chars = false) : Located u us t := by
  have hLex : lex text = .ok (us ++ t :: vs) := hTokens ▸ SourceUnit.lex_tokens h
  obtain ⟨c, pre, rest, -, hChars, hReads⟩ := (cuts_of_lex hLex).reads
  obtain ⟨hLine, hColumn⟩ := place_of_lex hLex hLone
  have hEnd : t.chars ++ vs.flatMap (·.chars) = [] →
      (us.flatMap (·.chars)).getLast? ≠ some '\n' := by
    rw [hChars]
    intro hNil
    cases hNil
  obtain ⟨l, hAt, hNumber, hText⟩ := SourceUnit.exists_line h (text_around hLex) hEnd
  constructor
  case stop => exact endLine_eq hLex (follows_of_lex hLone)
  case line =>
    refine ⟨l, ?_, hNumber.trans hLine.symm, ?_, ?_⟩
    · rw [hLine, Nat.add_sub_cancel]
      exact hAt
    · rw [hColumn, Nat.add_sub_cancel, hText]
      obtain ⟨more, hMore⟩ := firstPart_isPrefix t.chars (vs.flatMap (·.chars))
      by_cases hNone : firstPart (t.chars ++ vs.flatMap (·.chars)) = []
      · rw [hNone, List.append_eq_nil_iff] at hMore
        rw [hMore.1]
        exact List.nil_prefix
      · rw [dropReturn_append hNone, List.drop_left, ← hMore]
        exact dropReturn_prefix_append _ _
    · intro hKind hOwn
      have hNoReturn := return_not_mem_lastPart (hasLoneReturn_flatMap hLone)
      have hLength : l.chars = lastPart (us.flatMap (·.chars)) := by
        rcases hReads.chars_of_newline hKind with hNew | hNew | hNew
        · rw [hText, hChars, hNew]
          exact (congrArg dropReturn (List.append_nil _)).trans (dropReturn_eq_self hNoReturn)
        · rw [hText, hChars, hNew]
          exact (dropReturn_append (by simp [firstPart]) _).trans (List.append_nil _)
        · rw [hChars, hNew] at hOwn
          cases hOwn
      rw [hLength, hColumn]

end Located

/-! ## The place of an error -/

namespace Template

/-- Where a frame starts, if an error can be reported there. -/
def Frame.start? : Frame → Option Nat
  | .literal start | .code start _ | .blockComment start => some start
  | .quoted _ | .lineComment => none

theorem Frame.start?_move {f : Frame} {i s : Nat} {c : Char} {next : Option Char} :
    ∀ g ∈ (f.move i c next).frames, g.start? = some s → s = i ∨ f.start? = some s := by
  cases f <;> grind [move, start?]

/-- A literal stays open below what is opened inside it. -/
theorem Frame.move_literal (s i : Nat) (c : Char) (next : Option Char) :
    ((Frame.literal s).move i c next).frames = [] ∨
      ((Frame.literal s).move i c next).frames.getLast? = some (.literal s) := by
  rw [move]
  split
  · exact .inr rfl
  split
  · exact .inl rfl
  split
  · exact .inr rfl
  · exact .inr rfl

theorem unterminated_offset {stack : List Frame} (h : ∃ f ∈ stack, f.start?.isSome) :
    ∃ f ∈ stack, f.start? = some (unterminated stack).offset := by
  induction stack with
  | nil =>
    obtain ⟨f, hf, -⟩ := h
    cases hf
  | cons f below ih =>
    cases hStart : f.start? with
    | some s =>
      refine ⟨f, List.mem_cons_self, ?_⟩
      cases f <;> simp_all [Frame.start?, unterminated]
    | none =>
      have hBelow : ∃ g ∈ below, g.start?.isSome := by
        obtain ⟨g, hg, hSome⟩ := h
        rcases List.mem_cons.mp hg with rfl | hg
        · rw [hStart] at hSome
          cases hSome
        · exact ⟨g, hg, hSome⟩
      obtain ⟨g, hg, hOffset⟩ := ih hBelow
      refine ⟨g, List.mem_cons_of_mem f hg, ?_⟩
      cases f <;> simp_all [Frame.start?, unterminated]

/-- An unterminated template is reported where something in it starts. -/
theorem scan_error_offset {P : Nat → Prop} {e : LexError} (stack : List Frame) (i : Nat)
    (cs : List Char) (h : scan stack i cs = .error e)
    (hStarts : ∀ f ∈ stack, ∀ s, f.start? = some s → P s)
    (hBottom : stack = [] ∨ ∃ s, stack.getLast? = some (.literal s))
    (hHere : ∀ pre rest, cs = pre ++ rest → P (i + extent pre)) : P e.offset := by
  match stack, cs with
  | [], cs =>
    rw [scan] at h
    cases h
  | f :: below, [] =>
    cases h
    obtain ⟨s, hBottom⟩ := hBottom.resolve_left (List.cons_ne_nil f below)
    obtain ⟨g, hg, hOffset⟩ :=
      unterminated_offset ⟨_, List.mem_of_getLast? hBottom, Option.isSome_some⟩
    exact hStarts g hg _ hOffset
  | f :: below, c :: cs =>
    have hCount := move_count_le f i c cs
    obtain ⟨s, hBottom⟩ := hBottom.resolve_left (List.cons_ne_nil f below)
    rw [scan_cons, resume, map_eq_error_iff] at h
    refine scan_error_offset _ _ _ h ?_ ?_ ?_
    · intro g hg s hStart
      rcases List.mem_append.mp hg with hg | hg
      · rcases Frame.start?_move g hg hStart with rfl | hOwn
        · exact hHere [] (c :: cs) rfl
        · exact hStarts f List.mem_cons_self s hOwn
      · exact hStarts g (List.mem_cons_of_mem f hg) s hStart
    · cases below with
      | cons b bs =>
        refine .inr ⟨s, ?_⟩
        rw [List.getLast?_append]
        simpa using hBottom
      | nil =>
        cases hBottom
        rw [List.append_nil]
        exact (Frame.move_literal s i c cs.head?).imp_right fun hLast => ⟨s, hLast⟩
    · intro pre rest hSplit
      rw [Nat.add_assoc, ← extent_append]
      refine hHere _ rest ?_
      rw [List.append_assoc, ← hSplit, List.take_append_drop]
termination_by cs.length
decreasing_by
  rw [List.length_drop]
  omega

end Template

namespace Cursor

variable {cur : Cursor} {c : Char} {cs : List Char} {e : LexError}

/-- An error, if this is one, is reported at the cursor. -/
def ErrsHere (cur : Cursor) (x : Except LexError (TokenKind × Nat)) : Prop :=
  ∀ e, x = .error e → e.offset = cur.offset

theorem errsHere_ok (found : TokenKind × Nat) : cur.ErrsHere (.ok found) := by
  intro e he
  cases he

theorem errsHere_fail (fault : LexFault) : cur.ErrsHere (.error ⟨fault, cur.offset⟩) := by
  intro e he
  cases he
  rfl

theorem errsHere_ite {p : Prop} [Decidable p] {x y : Except LexError (TokenKind × Nat)}
    (hx : p → cur.ErrsHere x) (hy : ¬p → cur.ErrsHere y) : cur.ErrsHere (if p then x else y) := by
  split
  · exact hx ‹_›
  · exact hy ‹_›

theorem lexeme_errsHere (hTick : c ≠ '\x60') : cur.ErrsHere (cur.lexeme c cs) := by
  have hOk {p : Prop} {found} : p → cur.ErrsHere (.ok found) := fun _ => errsHere_ok found
  rw [lexeme]
  refine errsHere_ite hOk fun _ => errsHere_ite hOk fun _ => errsHere_ite hOk fun _ =>
    errsHere_ite hOk fun _ => errsHere_ite hOk fun _ => errsHere_ite (fun _ => ?_) fun _ =>
    errsHere_ite (fun _ => ?_) fun _ => errsHere_ite (fun _ => ?_) fun _ =>
    errsHere_ite (fun hTick' => absurd hTick' hTick) fun _ => errsHere_ite hOk fun _ =>
    errsHere_ite hOk fun _ => ?_
  · cases scanBlockComment cs.tail with
    | none => exact errsHere_fail _
    | some n => exact errsHere_ok _
  · cases scanRegex cs with
    | none => exact errsHere_fail _
    | some n => exact errsHere_ok _
  · cases scanString c cs with
    | none => exact errsHere_fail _
    | some n => exact errsHere_ok _
  · cases punctuators.find? fun p => p.toList.isPrefixOf (c :: cs) with
    | none => exact errsHere_fail _
    | some n => exact errsHere_ok _

theorem lexeme_template_error (h : cur.lexeme '\x60' cs = .error e) :
    Template.scanLiteral cur.offset cs = .error e := by
  have hSpacing : isSpacing '\x60' = false := by decide
  cases hScan : Template.scanLiteral cur.offset cs with
  | error d => simpa [lexeme, hSpacing, hScan, Except.map] using h
  | ok n => simp [lexeme, hSpacing, hScan, Except.map] at h

/-- A token that cannot be read is reported at its start or at a place inside it. -/
theorem exists_inner (h : cur.lexeme c cs = .error e) :
    ∃ inner rest, c :: cs = inner ++ rest ∧ e.offset = cur.offset + extent inner := by
  by_cases hTick : c = '\x60'
  · subst hTick
    refine Template.scan_error_offset
      (P := fun o => ∃ inner rest, '\x60' :: cs = inner ++ rest ∧ o = cur.offset + extent inner)
      [.literal cur.offset] (cur.offset + 1) cs (lexeme_template_error h) ?_ (.inr ⟨_, rfl⟩) ?_
    · intro f hf s hStart
      cases List.mem_singleton.mp hf
      cases hStart
      exact ⟨[], _, rfl, rfl⟩
    · rintro pre rest rfl
      exact ⟨'\x60' :: pre, rest, rfl, by rw [extent_cons, ← Nat.add_assoc]; rfl⟩
  · exact ⟨[], c :: cs, rfl, lexeme_errsHere hTick e h⟩

theorem exists_failure {cur : Cursor} {cs : List Char} {e : LexError}
    (h : tokens 0 cur cs = .error e) :
    ∃ us c rest, cs = us.flatMap (·.chars) ++ c :: rest ∧ Cuts cur (us.flatMap (·.chars)) us ∧
      (us.foldl pass cur).lexeme c rest = .error e := by
  match cs with
  | [] =>
    rw [tokens] at h
    cases h
  | c :: cs =>
    cases hLexeme : cur.lexeme c cs with
    | error d =>
      rw [tokens, hLexeme] at h
      cases h
      exact ⟨[], c, cs, rfl, .nil, hLexeme⟩
    | ok found =>
      obtain ⟨kind, n⟩ := found
      obtain ⟨pre, rest, hSplit, -, hReads⟩ := lexeme_eq_ok_iff.mp hLexeme
      have hShorter : rest.length < (c :: cs).length := by
        rw [hSplit, List.length_cons, List.length_append]
        omega
      rw [hSplit, tokens_append hReads, map_eq_error_iff] at h
      obtain ⟨us, d, ds, rfl, hCuts, hError⟩ := exists_failure h
      refine ⟨cur.token kind (c :: pre) :: us, d, ds, ?_, ?_, hError⟩
      · rw [hSplit, List.flatMap_cons, chars_token]
        simp
      · rw [List.flatMap_cons, chars_token]
        exact .cons (hReads.shorten (List.prefix_append _ _)) hCuts
termination_by cs.length

end Cursor

/-- Where and how a text fails to be cut into tokens: behind the tokens `us` no further one can be
read, and the error is reported behind `inner`. -/
structure FailsBehind (text : String) (e : LexError) (us : List Token) (inner rest : List Char) :
    Prop where
  text : text.toList = us.flatMap (·.chars) ++ (inner ++ rest)
  before : lex (String.ofList (us.flatMap (·.chars))) = .ok us
  failure : ∃ c cs, inner ++ rest = c :: cs ∧ (us.foldl Cursor.pass {}).lexeme c cs = .error e
  offset : e.offset = extent (us.flatMap (·.chars) ++ inner)

theorem exists_failsBehind {text : String} {e : LexError} (h : lex text = .error e) :
    ∃ us inner rest, FailsBehind text e us inner rest := by
  obtain ⟨us, c, cs, hText, hCuts, hError⟩ := Cursor.exists_failure h
  obtain ⟨inner, rest, hSplit, hOffset⟩ := Cursor.exists_inner hError
  refine ⟨us, inner, rest, hSplit ▸ hText, ?_, ⟨c, cs, hSplit.symm, hError⟩, ?_⟩
  · rw [lex, String.toList_ofList]
    exact Cursor.tokens_of_cuts hCuts
  · rw [hOffset, Cursor.foldl_pass_offset, Nat.zero_add, extent_append]

theorem FailsBehind.parse_eq {path text : String} {e : LexError} {us : List Token}
    {inner rest : List Char} (h : FailsBehind text e us inner rest) (hLex : lex text = .error e)
    (hLone : ∀ s ∈ us, hasLoneReturn s.chars = false) (hInner : hasLoneReturn inner = false) :
    let cur := (us.foldl Cursor.pass {}).advance inner
    SourceUnit.parse path text = .error ⟨.lexical e.fault, cur.line, cur.column⟩ := by
  have hFollows := (follows_of_lex hLone).advance hInner
  simp only [SourceUnit.parse, hLex, SourceUnit.lexicalError, h.offset, h.text,
    ← List.append_assoc, SourceUnit.position_extent, hFollows.line, hFollows.column]

/-- As long as no token further up holds a lone carriage return, tokens and errors stand on the
lines and in the columns that the cursor counts. -/
theorem places_agree (path text : String) :
    (∀ u, SourceUnit.parse path text = .ok u → ∀ us t vs, u.tokens.toList = us ++ t :: vs →
      (∀ s ∈ us, hasLoneReturn s.chars = false) → Located u us t) ∧
    (∀ e, lex text = .error e → ∃ us inner rest, FailsBehind text e us inner rest ∧
      ((∀ s ∈ us, hasLoneReturn s.chars = false) → hasLoneReturn inner = false →
        let cur := (us.foldl Cursor.pass {}).advance inner
        SourceUnit.parse path text = .error ⟨.lexical e.fault, cur.line, cur.column⟩)) := by
  constructor
  · intro u h us t vs hTokens hLone
    exact located_of_parse h hTokens hLone
  · intro e hLex
    obtain ⟨us, inner, rest, hFails⟩ := exists_failsBehind hLex
    exact ⟨us, inner, rest, hFails, hFails.parse_eq hLex⟩

theorem places_agree_comment :
    let comment : Token := ⟨⟨.blockComment, "/*\r\n*/", 1⟩, 0, 1⟩
    let name : Token := ⟨⟨.identifier, "c", 2⟩, 6, 3⟩
    let broken := "\x60a\n$\x7b/*"
    (∃ u, SourceUnit.parse "a.js" "/*\r\n*/c\r\n" = .ok u ∧ Located u [comment] name) ∧
    ∃ us inner rest, FailsBehind broken ⟨.unterminatedComment, 5⟩ us inner rest ∧
      SourceUnit.parse "a.js" broken = .error ⟨.lexical .unterminatedComment,
        ((us.foldl Cursor.pass {}).advance inner).line,
        ((us.foldl Cursor.pass {}).advance inner).column⟩ := by
  intro comment name broken
  constructor
  · obtain ⟨u, hu, hTokens⟩ : ∃ u, SourceUnit.parse "a.js" "/*\r\n*/c\r\n" = .ok u ∧
        u.tokens.toList = [comment] ++ name :: [⟨⟨.newline, "\r\n", 2⟩, 7, 4⟩] :=
      exists_ok (by decide +kernel)
    have hLone : ∀ s ∈ [comment], hasLoneReturn s.chars = false := by decide
    exact ⟨u, hu, (places_agree "a.js" _).1 u hu _ _ _ hTokens hLone⟩
  · have hLex : lex broken = .error ⟨.unterminatedComment, 5⟩ := by decide +kernel
    obtain ⟨us, inner, rest, hFails, hPlace⟩ := (places_agree "a.js" broken).2 _ hLex
    have hReturn : '\r' ∉ us.flatMap (·.chars) ++ inner := by
      intro hMem
      have hText : '\r' ∈ broken.toList := by
        rw [hFails.text, ← List.append_assoc]
        exact List.mem_append_left rest hMem
      revert hText
      decide
    rw [List.mem_append, not_or] at hReturn
    refine ⟨us, inner, rest, hFails, hPlace ?_ (hasLoneReturn_of_not_mem hReturn.2)⟩
    intro s hs
    exact hasLoneReturn_of_not_mem fun hMem => hReturn.1 (List.mem_flatMap_of_mem hs hMem)

/-- Behind a lone carriage return the cursor is on a new line; the place of an error, the end of a
token and the lines of the unit do not know of it. -/
theorem places_agree_exceptions :
    let us : List Token := [⟨⟨.identifier, "a", 1⟩, 0, 1⟩, ⟨⟨.newline, "\r", 1⟩, 1, 2⟩]
    let cur := us.foldl Cursor.pass {}
    let comment : Token := ⟨⟨.blockComment, "/*\r*/", 1⟩, 0, 1⟩
    (lex "a\r" = .ok us ∧ cur.lexeme '\'' ['x'] = .error ⟨.unterminatedString, 2⟩ ∧
      (cur.line, cur.column) = (2, 1) ∧
      SourceUnit.parse "a.js" "a\r'x" = .error ⟨.lexical .unterminatedString, 1, 3⟩) ∧
    (lex "/*\r*/" = .ok [comment] ∧ comment.endLine = 1 ∧
      (({} : Cursor).advance comment.chars.dropLast).line = 2) ∧
    (SourceUnit.parse "a.js" "a\rb\n").toOption.map (fun u => (u.token? 2, u.lines.length)) =
      some (some ⟨⟨.identifier, "b", 2⟩, 2, 1⟩, 1) := by
  decide +kernel

end RuleScout
