import RuleScout.Proofs.Nested
import RuleScout.Proofs.Surroundings

/-!
# Mending a text

A text is mended by taking out some of its semicolons and by putting semicolons behind some of its
tokens. If no token can join what then stands next to it, and no slash comes to mean something else,
the mended text is cut at the same places: what is lost and what is added are semicolons.
-/

set_option autoImplicit false

namespace RuleScout

open Text

theorem Lexeme.isPunct_of_isTrivia {l : Lexeme} (h : l.isTrivia = true) (text : String) :
    l.isPunct text = false := by
  rw [Lexeme.isTrivia] at h
  have hKind : l.kind ≠ .punctuator := by
    rintro hKind
    rw [hKind] at h
    cases h
  simp [Lexeme.isPunct, hKind]

/-! ## Repairs -/

/-- What is done about a token. -/
inductive Repair where
  | keep
  | drop
  /-- Put a semicolon behind it. -/
  | close
  deriving DecidableEq, Repr

def Piece.semicolon : Piece := ⟨.punctuator, ";"⟩

def Repair.pieces (p : Piece) : Repair → List Piece
  | .keep => [p]
  | .drop => []
  | .close => [p, .semicolon]

/-- What is said in place of the tokens. -/
def mend (repair : Token → Repair) (ts : List Token) : List Piece :=
  ts.flatMap fun t => (repair t).pieces t.piece

def textOf (ps : List Piece) : String := String.join (ps.map (·.text))

variable {repair : Token → Repair} {t : Token} {us vs ts : List Token}

theorem mend_cons (repair : Token → Repair) (t : Token) (ts : List Token) :
    mend repair (t :: ts) = (repair t).pieces t.piece ++ mend repair ts := List.flatMap_cons

theorem toList_textOf_cons (p : Piece) (ps : List Piece) :
    (textOf (p :: ps)).toList = p.text.toList ++ (textOf ps).toList := by
  simp [textOf, String.toList_join]

/-- The semicolon between the tokens can be taken out. -/
structure Droppable (us : List Token) (t : Token) (vs : List Token) : Prop where
  semicolon : t.isPunct ";" = true
  before : ∀ s ∈ us.getLast?, s.isPunct "/" = false
  behind : ∀ n ∈ vs.head?, n.isTrivia = true ∨ n.isPunct "\x7d" = true
  next : ∀ n ∈ (vs.filter (·.isSignificant)).head?, n.isPunct ";" = false ∧ n.chars.head? ≠ some '/'

/-- A semicolon can be put behind the token. -/
structure Closable (t : Token) (vs : List Token) : Prop where
  significant : t.kind.isTrivia = false
  whole : t.isPunct "/" = false
  next : ∀ n ∈ (vs.filter (·.isSignificant)).head?,
    n.isPunct ";" = false ∧ (n.chars.head? = some '/' → regexAllowed (some t) = true)

/-- Semicolons are taken out and put in where they can be. -/
structure Harmless (repair : Token → Repair) (ts : List Token) : Prop where
  drop : ∀ us t vs, ts = us ++ t :: vs → repair t = .drop → Droppable us t vs
  close : ∀ us t vs, ts = us ++ t :: vs → repair t = .close → Closable t vs

namespace Harmless

theorem tail (h : Harmless repair (t :: ts)) : Harmless repair ts where
  drop us s vs hSplit hDrop := by
    have hAll := h.drop (t :: us) s vs (congrArg (t :: ·) hSplit) hDrop
    refine ⟨hAll.semicolon, fun r hr => hAll.before r ?_, hAll.behind, hAll.next⟩
    rw [List.getLast?_cons, Option.mem_def.mp hr]
    rfl
  close us s vs hSplit := h.close (t :: us) s vs (congrArg (t :: ·) hSplit)

theorem not_drop (h : Harmless repair ts) (ht : t ∈ ts) (hOther : t.isPunct ";" = false) :
    repair t ≠ .drop := by
  intro hDrop
  obtain ⟨us, vs, hSplit⟩ := List.append_of_mem ht
  rw [(h.drop us t vs hSplit hDrop).semicolon] at hOther
  cases hOther

end Harmless

theorem head?_mend (h : ∀ t ∈ ts.head?, repair t ≠ .drop) :
    (mend repair ts).head? = ts.head?.map (·.piece) := by
  cases ts with
  | nil => rfl
  | cons t ts =>
    have hKept := h t rfl
    rw [mend_cons]
    cases hRepair : repair t with
    | keep => rfl
    | drop => exact absurd hRepair hKept
    | close => rfl

/-- The first of the mended tokens that is not trivia is the first of the tokens. -/
theorem Harmless.ne_slash (h : Harmless repair ts)
    (hNext : ∀ n ∈ (ts.filter (·.isSignificant)).head?,
      n.isPunct ";" = false ∧ n.chars.head? ≠ some '/') :
    ∀ p ∈ (mend repair (ts.filter (·.isSignificant))).head?, p.text.toList.head? ≠ some '/' := by
  have hKept : ∀ n ∈ (ts.filter (·.isSignificant)).head?, repair n ≠ .drop := by
    intro n hn
    exact h.not_drop (List.mem_of_mem_filter (List.mem_of_mem_head? hn)) (hNext n hn).1
  rw [head?_mend hKept]
  intro p hp
  obtain ⟨n, hn, rfl⟩ := Option.map_eq_some_iff.mp hp
  exact (hNext n hn).2

namespace Cursor

variable {cur : Cursor} {kind : TokenKind} {c : Char} {cs pre rest : List Char}

theorem chars_of_isPunct {l : Lexeme} {text : String} (h : l.isPunct text = true) :
    l.chars = text.toList := congrArg String.toList (Lexeme.isPunct_iff.mp h).2

theorem Reads.isParting_of_isTrivia (hStart : cur.offset ≠ 0) (h : cur.Reads kind c pre rest)
    (hTrivia : kind.isTrivia = true) : isParting c = true := by
  cases h with
  | shebang hFirst hMark hRun => exact absurd hFirst hStart
  | lineFeed => decide
  | returnAndFeed => decide
  | loneReturn hAlone => decide
  | whitespace hSpacing hInline hRun => simp [isParting, hSpacing]
  | lineComment hMark hRun => decide
  | blockComment hBody => decide
  | word hName hRun => split at hTrivia <;> cases hTrivia
  | _ => cases hTrivia

theorem Reads.ne_lineComment (h : cur.Reads kind c pre (';' :: rest)) : kind ≠ .lineComment := by
  cases h with
  | shebang hStart hMark hRun => exact absurd (hRun.stops ';' rfl) (by decide)
  | lineComment hMark hRun => exact absurd (hRun.stops ';' rfl) (by decide)
  | word hName hRun => split <;> decide
  | _ => decide

/-! ## Where the mended text parts from the text -/

theorem Cuts.head?_textOf_mend (hCuts : Cuts cur cs ts) (h : ∀ t ∈ ts.head?, repair t ≠ .drop) :
    (textOf (mend repair ts)).toList.head? = cs.head? := by
  cases hCuts with
  | nil => rfl
  | @cons _ kind c pre rest ts hReads hRest =>
    obtain ⟨ps, hMend⟩ := List.head?_eq_some_iff.mp (head?_mend h)
    rw [hMend, toList_textOf_cons]
    simp [Lexeme.piece, token]

theorem isParting_behind (h : Droppable us t ts) (hHarmless : Harmless repair ts)
    (hStart : cur.offset ≠ 0) (hCuts : Cuts cur cs ts) :
    ∀ d ∈ (textOf (mend repair ts)).toList.head?, isParting d = true := by
  have hKept : ∀ n ∈ ts.head?, repair n ≠ .drop := by
    intro n hn
    apply hHarmless.not_drop (List.mem_of_mem_head? hn)
    rcases h.behind n hn with hTrivia | hBrace
    · exact Lexeme.isPunct_of_isTrivia hTrivia ";"
    · exact Lexeme.isPunct_of_isPunct hBrace (by decide)
  rw [hCuts.head?_textOf_mend hKept]
  cases hCuts with
  | nil => simp
  | @cons _ kind c pre rest ts hReads hRest =>
    rintro d hd
    cases hd
    rcases h.behind _ rfl with hTrivia | hBrace
    · exact hReads.isParting_of_isTrivia hStart hTrivia
    · have hChars := chars_of_isPunct hBrace
      rw [chars_token] at hChars
      obtain ⟨rfl, -⟩ := List.cons_eq_cons.mp hChars
      decide

/-- The text and the mended text go on alike, and where they part there is no token to join. -/
theorem Cuts.exists_parted (hCuts : Cuts cur cs ts) (h : Harmless repair ts) :
    ∃ same more more' : List Char, cs = same ++ more ∧
      (textOf (mend repair ts)).toList = same ++ more' ∧
      ∀ d ∈ more'.head?, isParting d = true := by
  induction hCuts with
  | nil => exact ⟨[], [], [], rfl, rfl, by simp⟩
  | @cons cur kind c pre rest ts hReads hRest ih =>
    obtain ⟨same, more, more', hText, hMended, hParts⟩ := ih h.tail
    cases hRepair : repair (cur.token kind (c :: pre)) with
    | keep =>
      refine ⟨c :: (pre ++ same), more, more', by simp [hText], ?_, hParts⟩
      rw [mend_cons, hRepair, Repair.pieces, List.singleton_append, toList_textOf_cons, hMended]
      simp [Lexeme.piece, token]
    | drop =>
      refine ⟨[], _, _, rfl, rfl, ?_⟩
      rw [mend_cons, hRepair]
      exact isParting_behind (h.drop [] _ ts rfl hRepair) h.tail
        (cur.pass_token_pos kind c pre).ne' hRest
    | close =>
      refine ⟨c :: pre, rest, ';' :: (textOf (mend repair ts)).toList, rfl, ?_, by simp [isParting]⟩
      rw [mend_cons, hRepair, Repair.pieces, List.cons_append, List.singleton_append,
        toList_textOf_cons, toList_textOf_cons]
      simp [Lexeme.piece, token, Piece.semicolon]

/-! ## The mended text is cut at the same places -/

theorem reads_semicolon (cur : Cursor) (rest : List Char) : cur.Reads .punctuator ';' [] rest := by
  refine .punctuator (fun hc => absurd hc (by decide)) (fun hc => absurd hc (by decide)) ?_
  rfl

theorem Says.behind_semicolon {ps : List Piece} (h : cur.Says cs ps) (hPast : 0 < cur.offset)
    (hSlash : regexAllowed cur.previous = true ∨ ∀ p ∈ ps.head?, p.text.toList.head? ≠ some '/') :
    cur.Says (';' :: cs) (.semicolon :: ps) := by
  have hAllowed : regexAllowed (cur.pass (cur.token .punctuator [';'])).previous = true := by
    rw [previous_of_significant _ _ rfl]
    simp [regexAllowed, token]
  have hMoved : (cur.pass (cur.token .punctuator [';'])).Says cs ps := by
    refine h.elsewhere (fun _ hZero => absurd hZero hPast.ne') ?_
    exact hSlash.imp_left fun hOpen => hAllowed.trans hOpen.symm
  exact .significant (reads_semicolon cur cs) rfl hMoved

/-- A token that must look at the very next character has the same one behind it. -/
theorem head?_mended_rest (h : Harmless repair (cur.token kind (c :: pre) :: ts))
    (hReads : cur.Reads kind c pre rest)
    (hRest : Cuts (cur.pass (cur.token kind (c :: pre))) rest ts)
    (hNear : kind = .lineComment ∨ kind = .punctuator ∧ c = '/' ∧ pre = []) :
    (textOf (mend repair ts)).toList.head? = rest.head? := by
  apply hRest.head?_textOf_mend
  intro n hn hDrop
  obtain ⟨ts, rfl⟩ := List.head?_eq_some_iff.mp hn
  have hOwn := h.drop [cur.token kind (c :: pre)] n ts rfl hDrop
  rcases hNear with rfl | ⟨rfl, rfl, rfl⟩
  · have hBehind := hRest.flatMap_chars
    rw [List.flatMap_cons, chars_of_isPunct hOwn.semicolon] at hBehind
    subst hBehind
    exact hReads.ne_lineComment rfl
  · have hSlash := hOwn.before _ rfl
    simp [Lexeme.isPunct, token] at hSlash

section Step

variable (hReads : cur.Reads kind c pre rest)
  (hRest : Cuts (cur.pass (cur.token kind (c :: pre))) rest ts)
  (h : Harmless repair (cur.token kind (c :: pre) :: ts))
  (hMore : (cur.pass (cur.token kind (c :: pre))).Says (textOf (mend repair ts)).toList
    (mend repair (ts.filter (·.isSignificant))))
include hReads hRest h hMore

theorem says_keep (hRepair : repair (cur.token kind (c :: pre)) = .keep) :
    cur.Says (textOf (mend repair (cur.token kind (c :: pre) :: ts))).toList
      (mend repair ((cur.token kind (c :: pre) :: ts).filter (·.isSignificant))) := by
  have hPast := cur.pass_token_pos kind c pre
  have hChars : (cur.token kind (c :: pre)).piece.text.toList = c :: pre := String.toList_ofList
  rw [mend_cons, hRepair, Repair.pieces, List.singleton_append, toList_textOf_cons, hChars,
    List.cons_append]
  cases hBlank : isSpacing c with
  | true =>
    -- the blanks may join others that were apart from them
    obtain ⟨hTrivia, hBlanks⟩ := hReads.blank hBlank
    have hAllowed := congrArg regexAllowed (cur.previous_of_trivia (c :: pre) hTrivia)
    rw [filter_cons_trivia _ _ hTrivia]
    exact hMore.behind_blanks hPast hAllowed (List.forall_mem_cons.mpr ⟨hBlank, hBlanks⟩)
  | false =>
    obtain ⟨same, more, more', rfl, hMended, hParts⟩ := hRest.exists_parted h.tail
    have hReads' := hReads.parted hParts hBlank fun hNear =>
      hMended ▸ head?_mended_rest h hReads hRest hNear
    rw [← hMended] at hReads'
    cases hKind : kind.isTrivia with
    | true =>
      rw [filter_cons_trivia _ _ hKind]
      exact .trivia hReads' hKind hMore
    | false =>
      rw [filter_cons_significant _ _ hKind, mend_cons, hRepair]
      exact .significant hReads' hKind hMore

omit hReads in
theorem says_drop (hRepair : repair (cur.token kind (c :: pre)) = .drop) :
    cur.Says (textOf (mend repair (cur.token kind (c :: pre) :: ts))).toList
      (mend repair ((cur.token kind (c :: pre) :: ts).filter (·.isSignificant))) := by
  have hOwn := h.drop [] _ ts rfl hRepair
  have hKind : kind.isTrivia = false := by
    have hPunctuator : kind = .punctuator := (Lexeme.isPunct_iff.mp hOwn.semicolon).1
    rw [hPunctuator]
    rfl
  rw [filter_cons_significant _ _ hKind, mend_cons, mend_cons, hRepair]
  refine hMore.elsewhere (fun hHash => ?_) (.inr (h.tail.ne_slash hOwn.next))
  have hParting := isParting_behind hOwn h.tail (cur.pass_token_pos kind c pre).ne' hRest '#' hHash
  exact absurd hParting (by decide)

omit hRest in
theorem says_close (hRepair : repair (cur.token kind (c :: pre)) = .close) :
    cur.Says (textOf (mend repair (cur.token kind (c :: pre) :: ts))).toList
      (mend repair ((cur.token kind (c :: pre) :: ts).filter (·.isSignificant))) := by
  obtain ⟨hSignificant, hWhole, hNext⟩ := h.close [] _ ts rfl hRepair
  have hKind : kind.isTrivia = false := hSignificant
  have hChars : (cur.token kind (c :: pre)).piece.text.toList = c :: pre := String.toList_ofList
  have hReads' : cur.Reads kind c pre (';' :: (textOf (mend repair ts)).toList) := by
    have hPlain : cur.Reads kind c pre ([] ++ rest) := hReads
    refine hPlain.parted (by simp [isParting]) (hReads.isSpacing_of_significant hKind) ?_
    rintro (rfl | ⟨rfl, rfl, rfl⟩)
    · cases hKind
    · simp [Lexeme.isPunct, token] at hWhole
  rw [filter_cons_significant _ _ hKind, mend_cons, mend_cons, hRepair, Repair.pieces,
    List.cons_append, List.singleton_append, toList_textOf_cons, toList_textOf_cons, hChars]
  refine .significant hReads' hKind (hMore.behind_semicolon (cur.pass_token_pos kind c pre) ?_)
  rw [previous_of_significant _ _ hKind]
  refine or_iff_not_imp_left.mpr fun hDenied => h.tail.ne_slash fun n hn => ?_
  exact ⟨(hNext n hn).1, fun hSlash => hDenied ((hNext n hn).2 hSlash)⟩

end Step

theorem Cuts.says_mend (hCuts : Cuts cur cs ts) (h : Harmless repair ts) :
    cur.Says (textOf (mend repair ts)).toList (mend repair (ts.filter (·.isSignificant))) := by
  induction hCuts with
  | nil => exact .nil
  | @cons cur kind c pre rest ts hReads hRest ih =>
    have hMore := ih h.tail
    cases hRepair : repair (cur.token kind (c :: pre)) with
    | keep => exact says_keep hReads hRest h hMore hRepair
    | drop => exact says_drop hRest h hMore hRepair
    | close => exact says_close hReads h hMore hRepair

end Cursor

/-- A text that is mended without harm is cut into the tokens it was mended to. -/
theorem lex_mend {text : String} (h : lex text = .ok ts) (hHarmless : Harmless repair ts) :
    ∃ ts', lex (textOf (mend repair ts)) = .ok ts' ∧
      significantPieces ts' = mend repair (ts.filter (·.isSignificant)) := by
  obtain ⟨ts', hCuts, hSays⟩ := (cuts_of_lex h).says_mend hHarmless
  exact ⟨ts', Cursor.tokens_of_cuts hCuts, hSays⟩

end RuleScout
