import RuleScout.Proofs.CodeBrackets
import RuleScout.Proofs.Surroundings
import RuleScout.Proofs.TokenOrder

/-!
# Text in braces

What stands between two braces is cut into the same tokens wherever it stands: the opening brace
decides what a slash means behind it, and no token reaches over the closing one. The tokens stand
to their opening brace alike, too: as many lines below it or, on its line, as many columns behind.
-/

set_option autoImplicit false

namespace RuleScout

open Text

/-- A line and a column stand to the place of one token as a second line and column stand to the
place of another token. -/
structure Abreast (a a' : Token) (line column line' column' : Nat) : Prop where
  below : a.line ≤ line
  lines : line + a'.line = line' + a.line
  sameLine : line = a.line → column + a'.column = column' + a.column
  laterLine : a.line < line → column = column'

theorem Abreast.refl (a a' : Token) : Abreast a a' a.line a.column a'.line a'.column where
  below := Nat.le_refl _
  lines := Nat.add_comm _ _
  sameLine _ := Nat.add_comm _ _
  laterLine hLater := absurd hLater (Nat.lt_irrefl _)

/-- Two tokens say the same and stand alike, each to a token of its own. -/
structure Token.Alike (a a' t t' : Token) : Prop where
  kind : t.kind = t'.kind
  text : t.text = t'.text
  place : Abreast a a' t.line t.column t'.line t'.column

theorem Token.Alike.isSignificant {a a' t t' : Token} (h : Token.Alike a a' t t') :
    t.isSignificant = t'.isSignificant := by
  rw [Lexeme.isSignificant, h.kind, Lexeme.isSignificant]

theorem punct_unique {l l' : Lexeme} {text : String} (h : l.isPunct text = true)
    (h' : l'.isPunct text = true) : l.kind = l'.kind ∧ l.text = l'.text := by
  obtain ⟨hKind, hText⟩ := Lexeme.isPunct_iff.mp h
  obtain ⟨hKind', hText'⟩ := Lexeme.isPunct_iff.mp h'
  exact ⟨hKind.trans hKind'.symm, hText.trans hText'.symm⟩

namespace Cursor

variable {cur cur' : Cursor} {kind kind' : TokenKind} {c : Char}
  {cs cs' pre pre' rest rest' same more : List Char} {a a' opener closer closer' : Token}
  {ts ts' vs vs' : List Token}

/-- A token in front of a closing brace stays what it is when the text behind the brace changes. -/
theorem Reads.before_brace (h : cur.Reads kind c pre (same ++ '\x7d' :: more))
    (more' : List Char) : cur.Reads kind c pre (same ++ '\x7d' :: more') := by
  have hHead : (same ++ '\x7d' :: more').head? = (same ++ '\x7d' :: more).head? := by
    cases same with
    | nil => rfl
    | cons d same => rfl
  by_cases hBlank : isSpacing c = true
  · obtain ⟨hTrivia, -⟩ := h.blank hBlank
    cases h with
    | lineFeed => exact .lineFeed
    | returnAndFeed => exact .returnAndFeed
    | loneReturn hAlone => exact .loneReturn (hHead ▸ hAlone)
    | whitespace hSpacing hInline hRun =>
      exact .whitespace hSpacing hInline ⟨hRun.inside, hHead ▸ hRun.stops⟩
    | shebang | lineComment | blockComment => exact absurd hBlank (by decide)
    | word => split at hTrivia <;> cases hTrivia
    | _ => cases hTrivia
  · refine h.parted ?_ (Bool.eq_false_iff.mpr hBlank) fun _ => hHead
    intro d hd
    cases hd
    decide

theorem Reads.unique (h : cur.Reads kind c pre rest) (h' : cur.Reads kind' c pre' rest')
    (hText : pre ++ rest = pre' ++ rest') : kind = kind' ∧ pre = pre' ∧ rest = rest' := by
  have hLexeme := (lexeme_of_reads h).symm.trans (hText ▸ lexeme_of_reads h')
  injection hLexeme with hLexeme
  obtain ⟨hPre, hRest⟩ := List.append_inj hText (congrArg Prod.snd hLexeme)
  exact ⟨congrArg Prod.fst hLexeme, hPre, hRest⟩

theorem advance_abreast (h : Abreast a a' cur.line cur.column cur'.line cur'.column)
    (cs : List Char) :
    Abreast a a' (cur.advance cs).line (cur.advance cs).column (cur'.advance cs).line
      (cur'.advance cs).column := by
  induction cs generalizing cur cur' with
  | nil => exact h
  | cons c cs ih =>
    obtain ⟨hBelow, hLines, hSame, hLater⟩ := h
    rw [advance, advance]
    split
    · refine ih ⟨?_, ?_, ?_, fun _ => rfl⟩ <;> dsimp only <;> omega
    · refine ih ⟨hBelow, hLines, fun hLine => ?_, fun hLine => congrArg (· + 1) (hLater hLine)⟩
      have hColumn := hSame hLine
      dsimp only
      omega

theorem pass_abreast (h : Abreast a a' cur.line cur.column cur'.line cur'.column)
    (kind : TokenKind) (cs : List Char) :
    Abreast a a' (cur.pass (cur.token kind cs)).line (cur.pass (cur.token kind cs)).column
      (cur'.pass (cur'.token kind cs)).line (cur'.pass (cur'.token kind cs)).column := by
  rw [pass_line, pass_column, pass_line, pass_column, chars_token, chars_token]
  exact advance_abreast h cs

theorem Cuts.head_abreast (h : Cuts cur cs (closer :: vs)) (h' : Cuts cur' cs' (closer' :: vs'))
    (hPlace : Abreast a a' cur.line cur.column cur'.line cur'.column) :
    Abreast a a' closer.line closer.column closer'.line closer'.column := by
  cases h
  cases h'
  exact hPlace

theorem Cuts.behind_brace (h : Cuts cur cs (opener :: ts))
    (hOpens : opener.isPunct "\x7b" = true) :
    ∃ next rest, Cuts next rest ts ∧ next.offset ≠ 0 ∧ regexAllowed next.previous = true ∧
      next.line = opener.line ∧ next.column = opener.column + 1 := by
  obtain ⟨hKind, hText⟩ := Lexeme.isPunct_iff.mp hOpens
  have hChars : opener.chars = ['\x7b'] := congrArg String.toList hText
  cases h with
  | @cons _ kind c pre rest _ hReads hRest =>
    refine ⟨_, rest, hRest, (cur.pass_token_pos kind c pre).ne', ?_, ?_, ?_⟩
    · have hSignificant : kind.isTrivia = false := congrArg TokenKind.isTrivia hKind
      rw [previous_of_significant _ _ hSignificant, regexAllowed, hKind, hText]
      rfl
    · rw [pass_line, hChars]
      rfl
    · rw [pass_column, hChars]
      rfl

theorem Cuts.eq_of_brace (h : Cuts cur cs (ts ++ closer :: vs))
    (hCloser : closer.isPunct "\x7d" = true) :
    cs = ts.flatMap (·.chars) ++ '\x7d' :: vs.flatMap (·.chars) := by
  have hBrace : closer.chars = ['\x7d'] :=
    congrArg String.toList (Lexeme.isPunct_iff.mp hCloser).2
  rw [← h.flatMap_chars, List.flatMap_append, List.flatMap_cons, hBrace, List.singleton_append]

/-- Up to a closing brace, the same text is cut into the same tokens. -/
theorem Cuts.before_brace (h : Cuts cur cs (ts ++ closer :: vs))
    (h' : Cuts cur' cs' (ts' ++ closer' :: vs')) (hCloser : closer.isPunct "\x7d" = true)
    (hCloser' : closer'.isPunct "\x7d" = true)
    (hText : ts.flatMap (·.chars) = ts'.flatMap (·.chars))
    (hPast : cur.offset ≠ 0) (hAllowed : regexAllowed cur'.previous = regexAllowed cur.previous)
    (hPlace : Abreast a a' cur.line cur.column cur'.line cur'.column) :
    List.Forall₂ (Token.Alike a a') (ts ++ [closer]) (ts' ++ [closer']) := by
  induction ts generalizing cur cur' cs cs' ts' with
  | nil =>
    cases ts' with
    | nil =>
      obtain ⟨hKind, hOwn⟩ := punct_unique hCloser hCloser'
      exact .cons ⟨hKind, hOwn, h.head_abreast h' hPlace⟩ .nil
    | cons t ts' =>
      have hNonempty := h'.chars_ne_nil t List.mem_cons_self
      exact absurd hText.symm (by simp [hNonempty])
  | cons t ts ih =>
    cases ts' with
    | nil =>
      have hNonempty := h.chars_ne_nil t List.mem_cons_self
      exact absurd hText (by simp [hNonempty])
    | cons t' ts' =>
      cases h with
      | @cons _ kind c pre rest _ hReads hRest =>
        cases h' with
        | @cons _ kind' c' pre' rest' _ hReads' hRest' =>
          obtain rfl := hRest.eq_of_brace hCloser
          obtain rfl := hRest'.eq_of_brace hCloser'
          rw [List.flatMap_cons, List.flatMap_cons, chars_token, chars_token, List.cons_append,
            List.cons_append, List.cons.injEq] at hText
          obtain ⟨rfl, hText⟩ := hText
          -- the first token is the same, read with the text behind the brace exchanged
          have hMoved := (hReads.before_brace (vs'.flatMap (·.chars))).elsewhere
            (fun _ hZero => absurd hZero hPast) fun _ _ => hAllowed
          obtain ⟨rfl, rfl, -⟩ := hMoved.unique hReads' <| by
            rw [← List.append_assoc, hText, List.append_assoc]
          refine .cons ⟨rfl, rfl, hPlace⟩ ?_
          exact ih hRest hRest' (List.append_cancel_left hText) (cur.pass_token_pos kind c pre).ne'
            (regexAllowed_pass kind _ fun _ => hAllowed) (pass_abreast hPlace kind _)

end Cursor

/-! ## Braces of a unit -/

namespace SourceUnit

/-- A pair of braces of a unit, by the indices of its two tokens. -/
structure Braced (u : SourceUnit) where
  opener : Nat
  closer : Nat
  opens : (u.token? opener).any (·.isPunct "\x7b") = true
  closes : u.matching opener = some closer

namespace Braced

variable {u u' : SourceUnit} {path path' text text' : String} {i : Nat} {t : Token}

def before (b : Braced u) : List Token := u.tokens.toList.take b.opener

/-- The tokens from brace to brace, with the braces. -/
def tokens (b : Braced u) : List Token :=
  (u.tokens.toList.drop b.opener).take (b.closer + 1 - b.opener)

def behind (b : Braced u) : List Token := u.tokens.toList.drop (b.closer + 1)

def chars (b : Braced u) : List Char := b.tokens.flatMap (·.chars)

def kind (b : Braced u) : Option BraceKind := u.braceKind b.opener

/-- The last token in front of the braces that is not trivia. -/
def previous? (b : Braced u) : Option Token := (b.before.filter (·.isSignificant)).getLast?

theorem markAt_opener (b : Braced u) : markAt u.lexemes b.opener = some (.opening .curly) := by
  obtain ⟨t, hToken, hOpens⟩ := (Option.any_eq_true _ _).mp b.opens
  exact markAt_lexemes_iff.mpr ⟨t, hToken, Lexeme.isPunct_iff.mp hOpens⟩

section Accepted

variable (h : parse path text = .ok u)
include h

theorem pair (b : Braced u) : Closes u.lexemes b.opener b.closer := by
  rcases (matching_eq_some_iff h).mp b.closes with hCloses | hCloses
  · exact hCloses
  · obtain ⟨bracket, -, hClosing⟩ := hCloses.sort
    cases hClosing.symm.trans b.markAt_opener

theorem split (b : Braced u) : u.tokens.toList = b.before ++ (b.tokens ++ b.behind) := by
  have hEnd : b.closer + 1 = b.opener + (b.closer + 1 - b.opener) := by
    have hLt := (b.pair h).lt
    omega
  have hBehind : b.behind =
      (u.tokens.toList.drop b.opener).drop (b.closer + 1 - b.opener) := by
    rw [List.drop_drop, ← hEnd, behind]
  rw [hBehind, tokens, List.take_append_drop, before, List.take_append_drop]

/-- Every opening brace of an accepted text is closed. -/
theorem exists_of_token? (ht : u.token? i = some t) (hOpens : t.isPunct "\x7b" = true) :
    ∃ b : Braced u, b.opener = i := by
  have hOpening : markAt u.lexemes i = some (.opening .curly) :=
    markAt_lexemes_iff.mpr ⟨t, ht, Lexeme.isPunct_iff.mp hOpens⟩
  obtain ⟨n, hBrackets, hRecorded⟩ := exists_nesting h
  obtain ⟨k, hCloses⟩ := hRecorded.settled.openers i _ hOpening
  have hOpener : (u.token? i).any (·.isPunct "\x7b") = true := by
    rw [ht]
    exact hOpens
  exact ⟨⟨i, k, hOpener, (matching_eq_some_iff h).mpr (.inl hCloses)⟩, rfl⟩

theorem kind_eq (b : Braced u) :
    b.kind = some (BraceKind.after (b.previous?.map Token.toLexeme)) := by
  obtain ⟨n, hBrackets, hRecorded⟩ := exists_nesting h
  rw [kind, braceKind, hBrackets,
    braceKind_closes hRecorded.settled (b.pair h) b.markAt_opener (.inl rfl), braceOf,
    if_pos rfl, significantBefore, lexemes, ← List.map_take, List.filter_map, List.getLast?_map,
    previous?]
  rfl

theorem exists_tokens (b : Braced u) : ∃ opener closer inner,
    u.token? b.opener = some opener ∧ opener.isPunct "\x7b" = true ∧
      closer.isPunct "\x7d" = true ∧ b.tokens = opener :: (inner ++ [closer]) := by
  have hPair := b.pair h
  obtain ⟨bracket, hOpening, hClosing⟩ := hPair.sort
  cases b.markAt_opener.symm.trans hOpening
  obtain ⟨t, ht, hOpens⟩ := markAt_lexemes_iff.mp hOpening
  obtain ⟨s, hs, hCloses⟩ := markAt_lexemes_iff.mp hClosing
  refine ⟨t, s, (u.tokens.toList.drop (b.opener + 1)).take (b.closer - (b.opener + 1)), ht,
    Lexeme.isPunct_iff.mpr hOpens, Lexeme.isPunct_iff.mpr hCloses, ?_⟩
  rw [token?, ← Array.getElem?_toList] at ht hs
  obtain ⟨ho, rfl⟩ := List.getElem?_eq_some_iff.mp ht
  have hLength : b.closer + 1 - b.opener = b.closer - (b.opener + 1) + 1 + 1 := by
    have hLt := hPair.lt
    omega
  have hLast : (u.tokens.toList.drop (b.opener + 1))[b.closer - (b.opener + 1)]? = some s := by
    rw [List.getElem?_drop, Nat.add_sub_cancel' hPair.lt, hs]
  rw [tokens, hLength, ← List.getElem_cons_drop ho, List.take_succ_cons, List.take_add_one, hLast]
  rfl

theorem tokens_alike (h' : parse path' text' = .ok u') (b : Braced u) (b' : Braced u')
    (hChars : b.chars = b'.chars) :
    ∃ t t', u.token? b.opener = some t ∧ u'.token? b'.opener = some t' ∧
      List.Forall₂ (Token.Alike t t') b.tokens b'.tokens := by
  obtain ⟨opener, closer, inner, hAt, hOpens, hCloses, hTokens⟩ := b.exists_tokens h
  obtain ⟨opener', closer', inner', hAt', hOpens', hCloses', hTokens'⟩ := b'.exists_tokens h'
  have hCuts := cuts_of_lex (lex_tokens h)
  have hCuts' := cuts_of_lex (lex_tokens h')
  rw [b.split h, hTokens, List.cons_append, List.append_assoc] at hCuts
  rw [b'.split h', hTokens', List.cons_append, List.append_assoc] at hCuts'
  obtain ⟨fore, aft, -, -, hBrace⟩ := hCuts.split
  obtain ⟨fore', aft', -, -, hBrace'⟩ := hCuts'.split
  obtain ⟨cur, rest, hRest, hPast, hAllowed, hLine, hColumn⟩ := hBrace.behind_brace hOpens
  obtain ⟨cur', rest', hRest', -, hAllowed', hLine', hColumn'⟩ := hBrace'.behind_brace hOpens'
  obtain ⟨hOpener, hText⟩ := punct_unique hOpens hOpens'
  obtain ⟨-, hLast⟩ := punct_unique hCloses hCloses'
  have hPlace : Abreast opener opener' cur.line cur.column cur'.line cur'.column := by
    rw [hLine, hLine', hColumn, hColumn']
    constructor <;> omega
  have hInner : inner.flatMap (·.chars) = inner'.flatMap (·.chars) := by
    rw [chars, chars, hTokens, hTokens', List.flatMap_cons, List.flatMap_cons,
      List.flatMap_append, List.flatMap_append, List.flatMap_singleton, List.flatMap_singleton,
      Lexeme.chars, hText, Lexeme.chars] at hChars
    rw [Lexeme.chars, hLast] at hChars
    exact List.append_cancel_right (List.append_cancel_left hChars)
  rw [hTokens, hTokens']
  exact ⟨opener, opener', hAt, hAt', .cons ⟨hOpener, hText, .refl _ _⟩ <|
    hRest.before_brace hRest' hCloses hCloses' hInner hPast (hAllowed'.trans hAllowed.symm) hPlace⟩

end Accepted

end Braced

end SourceUnit

end RuleScout
