import RuleScout.Proofs.CodeView
import RuleScout.Proofs.Mending
import RuleScout.Proofs.TokenOrder

/-!
# Missing and extra semicolons mended

Doing what the findings about semicolons ask for, all at once, takes the reported semicolons out of
the code or puts semicolons behind the reported tokens, and changes nothing else of it: the text is
still cut into tokens, and into the same ones. The two lists of punctuators and the list of keywords
that the rule goes by are what keeps a slash from being read otherwise.
-/

set_option autoImplicit false

namespace RuleScout

open Text

/-! ## What follows a token -/

namespace Cursor

variable {cur : Cursor} {kind : TokenKind} {c : Char} {cs pre rest : List Char} {t n : Token}
  {us vs ts : List Token}

theorem Reads.allowed_of_regex (h : cur.Reads kind c pre rest) (hKind : kind = .regex) :
    regexAllowed cur.previous = true := by
  cases h with
  | regex hAllowed hLine hBlock hBody hFlags => exact hAllowed
  | word hName hRun => split at hKind <;> cases hKind
  | _ => cases hKind

theorem Reads.kind_of_slash (h : cur.Reads kind c pre rest) (hSlash : c = '/') :
    kind.isTrivia = true ∨ kind = .regex ∨ kind = .punctuator := by
  cases h with
  | regex hAllowed hLine hBlock hBody hFlags => exact .inr (.inl rfl)
  | punctuator hDivision hPoint hLongest => exact .inr (.inr rfl)
  | string hQuote hBody =>
    subst hSlash
    exact absurd hQuote (by decide)
  | number hDigit hRun =>
    subst hSlash
    exact absurd hDigit (by simp)
  | word hName hRun =>
    subst hSlash
    exact absurd hName (not_or.mpr ⟨by decide, by simp⟩)
  | template hBody => exact absurd hSlash (by decide)
  | _ => exact .inl rfl

namespace Cuts

/-- Directly behind a semicolon the line is the same. -/
theorem line_eq_of_semicolon (h : Cuts cur cs (t :: n :: ts)) (ht : t.isPunct ";" = true) :
    n.line = t.line := by
  have hChars := chars_of_isPunct ht
  cases h with
  | @cons _ kind c pre rest _ hReads hRest =>
    have hLine : n.line = (cur.pass (cur.token kind (c :: pre))).line := by
      cases hRest
      rfl
    rw [hLine, pass_line, hChars]
    rfl

theorem regexAllowed_of_regex (h : Cuts cur cs ts)
    (hn : n ∈ (ts.filter (·.isSignificant)).head?) (hRegex : n.kind = .regex) :
    regexAllowed cur.previous = true := by
  induction h with
  | nil => cases hn
  | @cons cur kind c pre rest ts hReads hRest ih =>
    cases hKind : kind.isTrivia with
    | true =>
      rw [filter_cons_trivia _ _ hKind] at hn
      rw [← cur.previous_of_trivia (c :: pre) hKind]
      exact ih hn
    | false =>
      rw [filter_cons_significant _ _ hKind] at hn
      cases hn
      exact hReads.allowed_of_regex hRegex

theorem regexAllowed_behind (h : Cuts cur cs (t :: ts)) (ht : t.kind.isTrivia = false)
    (hn : n ∈ (ts.filter (·.isSignificant)).head?) (hRegex : n.kind = .regex) :
    regexAllowed (some t) = true := by
  cases h with
  | @cons _ kind c pre rest _ hReads hRest =>
    have hKind : kind.isTrivia = false := ht
    rw [← cur.previous_of_significant (c :: pre) hKind]
    exact hRest.regexAllowed_of_regex hn hRegex

end Cuts

end Cursor

/-! ## The reported tokens -/

namespace Semi

/-- The tokens that the findings are about. -/
def reported (u : SourceUnit) (options : Options) : List Token :=
  (sites u.code options).filterMap fun s => u.significantTokens[s.position]?

/-- What is said about a reported token. -/
def finding (options : Options) (t : Token) : Violation :=
  if options.string 0 "always" = "never" then .atStart t "Extra semicolon."
  else .atEnd t "Missing semicolon."

/-- What a finding about the token asks for. -/
def remedy (u : SourceUnit) (options : Options) (t : Token) : Repair :=
  if t ∈ reported u options then
    if options.string 0 "always" = "never" then .drop else .close
  else .keep

variable {u : SourceUnit} {options : Options} {c : Code} {p : Nat} {l n : Lexeme} {t : Token}
  {us vs : List Token}

theorem check_eq (u : SourceUnit) (options : Options) :
    rule.check u options = (reported u options).map (finding options) := by
  rw [rule, check_onCode, reported, List.map_filterMap]
  apply List.filterMap_congr
  intro s hs
  rw [sites] at hs
  rw [Site.locate?]
  split at hs
  · rename_i hNever
    obtain ⟨p, -, rfl⟩ := List.mem_map.mp hs
    have hFinding : finding options = (.atStart · "Extra semicolon.") :=
      funext fun t => if_pos hNever
    rw [hFinding]
    rfl
  · rename_i hAlways
    obtain ⟨p, -, rfl⟩ := List.mem_map.mp hs
    have hFinding : finding options = (.atEnd · "Missing semicolon.") :=
      funext fun t => if_neg hAlways
    rw [hFinding]
    rfl

/-- Whether the lexeme at the position is reported. -/
def isReported (options : Options) (c : Code) : Nat → Bool :=
  if options.string 0 "always" = "never" then isExtra c else isMissingAfter c

theorem reported_eq (u : SourceUnit) (options : Options) :
    reported u options =
      (u.code.positions.filter (isReported options u.code)).filterMap
        fun p => u.significantTokens[p]? := by
  rw [reported, sites, isReported]
  split
  · rw [List.filterMap_map]
    rfl
  · rw [List.filterMap_map]
    rfl

theorem exists_position (ht : t ∈ reported u options) :
    ∃ p, u.significantTokens[p]? = some t ∧ isReported options u.code p = true := by
  rw [reported_eq] at ht
  obtain ⟨p, hp, hToken⟩ := List.mem_filterMap.mp ht
  exact ⟨p, hToken, (List.mem_filter.mp hp).2⟩

theorem filterMap_getElem?_range (ts : List Token) :
    (List.range ts.length).filterMap (fun p => ts[p]?) = ts := by
  induction ts with
  | nil => rfl
  | cons t ts ih =>
    rw [List.length_cons, List.range_succ_eq_map, List.filterMap_cons, List.filterMap_map]
    exact congrArg (t :: ·) ih

/-- Every reported token is one of the file, and none is reported twice. -/
theorem reported_sublist (u : SourceUnit) (options : Options) :
    (reported u options).Sublist u.significantTokens := by
  have hPositions : u.code.positions = List.range u.significantTokens.length := by
    rw [Code.positions, Code.size, SourceUnit.code, Code.ofLexemes, List.size_toArray,
      List.length_map]
  have hPart : (u.code.positions.filter (isReported options u.code)).Sublist u.code.positions :=
    List.filter_sublist
  have hTokens := hPart.filterMap fun p => u.significantTokens[p]?
  rwa [← reported_eq, hPositions, filterMap_getElem?_range] at hTokens

/-! ## What the rule looks at -/

theorem not_slash_of_endsExpression (hAt : c.at? p = some l) (hEnds : c.endsExpression p = true) :
    l.isPunct "/" = false := by
  refine Bool.eq_false_iff.mpr fun hSlash => ?_
  obtain ⟨hKind, hText⟩ := Lexeme.isPunct_iff.mp hSlash
  simp [Code.endsExpression, hAt, hKind, hText] at hEnds

theorem endLine_of_semicolon (h : l.isPunct ";" = true) : l.endLine = l.line := by
  rw [Lexeme.endLine, Cursor.chars_of_isPunct h]
  rfl

theorem statementStarters_plain :
    ∀ s ∈ statementStarters, s ≠ ";" ∧ s.toList.head? ≠ some '/' := by decide

/-- What begins with a slash and may follow the end of a statement is a regular expression on
another line. -/
theorem following_of_ends (hEnds : statementEndsAfter c p = true) (hAt : c.at? p = some l)
    (hAfter : c.after? p = some n)
    (hSlash : n.chars.head? = some '/' → n.kind = .regex ∨ n.kind = .punctuator) :
    n.isPunct ";" = false ∧
      (n.chars.head? = some '/' → n.kind = .regex ∧ n.line ≠ l.endLine) := by
  simp only [statementEndsAfter, hAt, hAfter] at hEnds
  split at hEnds
  · have hBrace := (Bool.and_eq_true_iff.mp hEnds).1
    refine ⟨Lexeme.isPunct_of_isPunct hBrace (by decide), fun hHead => ?_⟩
    rw [Cursor.chars_of_isPunct hBrace] at hHead
    exact absurd hHead (by decide)
  · rename_i hLine
    have hOther (hKind : n.kind ≠ .punctuator) : n.isPunct ";" = false ∧
        (n.chars.head? = some '/' → n.kind = .regex ∧ n.line ≠ l.endLine) :=
      ⟨by simp [Lexeme.isPunct, hKind],
        fun hHead => ⟨(hSlash hHead).resolve_right hKind, hLine⟩⟩
    cases hKind : n.kind with
    | punctuator =>
      rw [hKind] at hEnds
      obtain ⟨hSemicolon, hHead⟩ := statementStarters_plain n.text (of_decide_eq_true hEnds)
      exact ⟨by simp [Lexeme.isPunct, hSemicolon], fun hSlash => absurd hSlash hHead⟩
    | _ => exact hKind ▸ hOther (by rw [hKind]; decide)

/-- The token stands at the position of the code, between the other significant tokens. -/
structure Stands (u : SourceUnit) (us : List Token) (t : Token) (vs : List Token) (p : Nat) :
    Prop where
  here : u.code.at? p = some t.toLexeme
  before : u.code.before? p = (us.filter (·.isSignificant)).getLast?.map Token.toLexeme
  after : u.code.after? p = (vs.filter (·.isSignificant)).head?.map Token.toLexeme
  significant : t.kind.isTrivia = false

theorem stands_of_split {text : String} (hLex : lex text = .ok u.tokens.toList)
    (hSplit : u.tokens.toList = us ++ t :: vs) (hp : u.significantTokens[p]? = some t) :
    Stands u us t vs p := by
  have hSignificant : t.isSignificant = true :=
    (List.mem_filter.mp (List.mem_of_getElem? hp)).2
  have hTokens : u.significantTokens =
      us.filter (·.isSignificant) ++ t :: vs.filter (·.isSignificant) := by
    rw [SourceUnit.significantTokens, hSplit, List.filter_append, List.filter_cons,
      if_pos hSignificant]
  have hNodup : u.significantTokens.Nodup := (cuts_of_lex hLex).nodup.filter _
  obtain rfl : p = (us.filter (·.isSignificant)).length := by
    apply (List.getElem?_inj (List.getElem?_eq_some_iff.mp hp).1 hNodup).mp
    rw [hp, hTokens, List.getElem?_append_right (Nat.le_refl _), Nat.sub_self]
    rfl
  constructor
  case here => rw [SourceUnit.code_at?, hp, Option.map_some]
  case before =>
    rcases List.eq_nil_or_concat' (us.filter (·.isSignificant)) with hNone | ⟨init, s, hLast⟩
    · rw [hNone]
      rfl
    · rw [hLast, List.length_append, Code.before?, List.getLast?_concat]
      change u.code.at? init.length = _
      rw [SourceUnit.code_at?, hTokens, hLast]
      simp
  case after =>
    rw [Code.after?, SourceUnit.code_at?, hTokens, List.getElem?_append_right (by omega),
      Nat.add_sub_cancel_left, List.getElem?_cons_succ, List.head?_eq_getElem?]
  case significant => exact (Bool.not_eq_true' _).mp hSignificant

/-! ## The remedies do no harm -/

namespace Stands

variable (hStands : Stands u us t vs p)
include hStands

theorem before_of_endsExpression (hBefore : (Code.prev p).any u.code.endsExpression = true) :
    ∀ s ∈ us.getLast?, s.isPunct "/" = false := by
  intro s hs
  refine Bool.eq_false_iff.mpr fun hSlash => ?_
  have hSignificant : s.kind.isTrivia = false := by
    rw [(Lexeme.isPunct_iff.mp hSlash).1]
    rfl
  obtain ⟨init, rfl⟩ := List.getLast?_eq_some_iff.mp hs
  obtain ⟨q, hq, hExpression⟩ := (Option.any_eq_true _ _).mp hBefore
  have hPrev := hStands.before
  rw [Code.before?, hq, List.filter_append, filter_cons_significant _ _ hSignificant,
    List.filter_nil, List.getLast?_concat] at hPrev
  rw [not_slash_of_endsExpression hPrev hExpression] at hSlash
  cases hSlash

theorem behind_of_statementEndsAfter {cur : Cursor} {cs : List Char}
    (hHere : Cursor.Cuts cur cs (t :: vs)) (hSemicolon : t.isPunct ";" = true)
    (hEnds : statementEndsAfter u.code p = true) :
    ∀ n ∈ vs.head?, n.isTrivia = true ∨ n.isPunct "\x7d" = true := by
  intro n hn
  obtain ⟨vs, rfl⟩ := List.head?_eq_some_iff.mp hn
  cases hTrivia : n.isTrivia with
  | true => exact .inl rfl
  | false =>
    have hAfter := hStands.after
    rw [filter_cons_significant _ _ hTrivia, List.head?_cons, Option.map_some] at hAfter
    have hLine := hHere.line_eq_of_semicolon hSemicolon
    simp only [statementEndsAfter, hStands.here, hAfter, hLine, endLine_of_semicolon hSemicolon,
      if_true, Bool.and_eq_true] at hEnds
    exact .inr hEnds.1

end Stands

section Harm

variable {text : String} (hLex : lex text = .ok u.tokens.toList)
  (hSplit : u.tokens.toList = us ++ t :: vs) (hStands : Stands u us t vs p)
include hLex hSplit hStands

theorem following (hEnds : statementEndsAfter u.code p = true) {n : Token}
    (hn : n ∈ (vs.filter (·.isSignificant)).head?) :
    n.isPunct ";" = false ∧
      (n.chars.head? = some '/' → n.kind = .regex ∧ n.line ≠ t.endLine) := by
  have hAfter := hStands.after.trans (congrArg (Option.map Token.toLexeme) hn)
  refine following_of_ends hEnds hStands.here hAfter fun hHead => ?_
  obtain ⟨hBehind, hSignificant⟩ := List.mem_filter.mp (List.mem_of_mem_head? hn)
  obtain ⟨before, behind, rfl⟩ := List.append_of_mem hBehind
  have hCuts := cuts_of_lex hLex
  rw [hSplit, ← List.cons_append, ← List.append_assoc] at hCuts
  obtain ⟨c, pre, rest, -, hChars, hReads⟩ := hCuts.reads
  rw [hChars] at hHead
  refine (hReads.kind_of_slash (Option.some.inj hHead)).resolve_left fun hTrivia => ?_
  rw [Lexeme.isSignificant, hTrivia] at hSignificant
  cases hSignificant

theorem droppable_of_isExtra (hExtra : isExtra u.code p = true) : Droppable us t vs := by
  simp only [isExtra, Bool.and_eq_true, Bool.not_eq_true'] at hExtra
  obtain ⟨⟨⟨⟨hOwn, -⟩, hBefore⟩, hSafe⟩, hEnds⟩ := hExtra
  have hSemicolon : t.isPunct ";" = true := by simpa [Code.isPunct, hStands.here] using hOwn
  obtain ⟨pre, rest, -, -, hHere⟩ := (hSplit ▸ cuts_of_lex hLex).split
  constructor
  case semicolon => exact hSemicolon
  case before => exact hStands.before_of_endsExpression hBefore
  case behind => exact hStands.behind_of_statementEndsAfter hHere hSemicolon hEnds
  case next =>
    intro n hn
    obtain ⟨hOther, hHead⟩ := following hLex hSplit hStands hEnds hn
    refine ⟨hOther, fun hSlash => ?_⟩
    -- a regular expression on a later line makes the semicolon one to keep
    obtain ⟨hRegex, hLine⟩ := hHead hSlash
    rw [endLine_of_semicolon hSemicolon] at hLine
    have hAfter := hStands.after.trans (congrArg (Option.map Token.toLexeme) hn)
    have hBelow := hHere.line_le_of_mem (List.mem_filter.mp (List.mem_of_mem_head? hn)).1
    have hLater : t.line < n.line := by omega
    simp [isRisky, hStands.here, hAfter, hRegex, hLater] at hSafe

theorem closable_of_isMissingAfter (hMissing : isMissingAfter u.code p = true) :
    Closable t vs := by
  simp only [isMissingAfter, Bool.and_eq_true] at hMissing
  obtain ⟨⟨hExpression, -⟩, hEnds⟩ := hMissing
  obtain ⟨pre, rest, -, -, hHere⟩ := (hSplit ▸ cuts_of_lex hLex).split
  constructor
  case significant => exact hStands.significant
  case whole => exact not_slash_of_endsExpression hStands.here hExpression
  case next =>
    intro n hn
    obtain ⟨hOther, hHead⟩ := following hLex hSplit hStands hEnds hn
    exact ⟨hOther, fun hSlash => hHere.regexAllowed_behind hStands.significant hn (hHead hSlash).1⟩

end Harm

theorem remedy_drop_iff :
    remedy u options t = .drop ↔ t ∈ reported u options ∧ options.string 0 "always" = "never" := by
  simp only [remedy]
  split_ifs <;> simp [*]

theorem remedy_close_iff :
    remedy u options t = .close ↔ t ∈ reported u options ∧ options.string 0 "always" ≠ "never" := by
  simp only [remedy]
  split_ifs <;> simp [*]

theorem harmless {text : String} (hLex : lex text = .ok u.tokens.toList) (options : Options) :
    Harmless (remedy u options) u.tokens.toList := by
  constructor
  case drop =>
    intro us t vs hSplit hDrop
    obtain ⟨ht, hNever⟩ := remedy_drop_iff.mp hDrop
    obtain ⟨p, hp, hExtra⟩ := exists_position ht
    rw [isReported, if_pos hNever] at hExtra
    exact droppable_of_isExtra hLex hSplit (stands_of_split hLex hSplit hp) hExtra
  case close =>
    intro us t vs hSplit hClose
    obtain ⟨ht, hAlways⟩ := remedy_close_iff.mp hClose
    obtain ⟨p, hp, hMissing⟩ := exists_position ht
    rw [isReported, if_neg hAlways] at hMissing
    exact closable_of_isMissingAfter hLex hSplit (stands_of_split hLex hSplit hp) hMissing

end Semi

/-- Every finding is about a token of the file. When all of them are mended at once, the text is cut
into the tokens it had, without the semicolons that were reported as extra, or with semicolons
behind the tokens that were reported to miss one. -/
theorem semicolons_mended (path text : String) (options : Options) (u : SourceUnit)
    (h : SourceUnit.parse path text = .ok u) :
    Semi.rule.check u options = (Semi.reported u options).map (Semi.finding options) ∧
      (Semi.reported u options).Sublist u.significantTokens ∧
      (options.string 0 "always" = "never" →
        ∀ t ∈ Semi.reported u options, t.piece = .semicolon) ∧
      textOf (u.tokens.toList.map (·.piece)) = text ∧
      ∃ ts, lex (textOf (mend (Semi.remedy u options) u.tokens.toList)) = .ok ts ∧
        significantPieces ts = mend (Semi.remedy u options) u.significantTokens := by
  have hLex := SourceUnit.lex_tokens h
  have hHarmless := Semi.harmless hLex options
  refine ⟨Semi.check_eq u options, Semi.reported_sublist u options, fun hNever t ht => ?_, ?_, ?_⟩
  · have hToken := (List.mem_filter.mp ((Semi.reported_sublist u options).subset ht)).1
    obtain ⟨us, vs, hSplit⟩ := List.append_of_mem hToken
    have hOwn := hHarmless.drop us t vs hSplit (Semi.remedy_drop_iff.mpr ⟨ht, hNever⟩)
    obtain ⟨hKind, hText⟩ := Lexeme.isPunct_iff.mp hOwn.semicolon
    rw [Lexeme.piece, hKind, hText, Piece.semicolon]
  · rw [textOf, List.map_map]
    exact String.toList_inj.mp ((join_texts_toList _).trans (cuts_of_lex hLex).flatMap_chars)
  · exact lex_mend hLex hHarmless

/-- Without its semicolons a text of two statements still has them on lines of their own, and behind
a keyword that gets a semicolon a regular expression stays one. -/
theorem semicolons_mended_lines :
    (∃ u ts, SourceUnit.parse "a.js" "a = b;\n\n++c; // d\n" = .ok u ∧
      Semi.rule.check u ⟨[.string "never"]⟩ =
        [⟨"Extra semicolon.", 1, 6⟩, ⟨"Extra semicolon.", 3, 4⟩] ∧
      lex "a = b\n\n++c // d\n" = .ok ts ∧ (significantPieces ts).map (·.text) =
        ["a", "=", "b", "++", "c"]) ∧
    ∃ u ts, SourceUnit.parse "a.js" "return\n/;/g" = .ok u ∧
      Semi.rule.check u .empty =
        [⟨"Missing semicolon.", 1, 7⟩, ⟨"Missing semicolon.", 2, 5⟩] ∧
      lex "return;\n/;/g;" = .ok ts ∧ significantPieces ts =
        [⟨.keyword, "return"⟩, .semicolon, ⟨.regex, "/;/g"⟩, .semicolon] := by
  constructor
  · obtain ⟨u, hu, hFound, hText, hPieces⟩ : ∃ u,
        SourceUnit.parse "a.js" "a = b;\n\n++c; // d\n" = .ok u ∧
        Semi.rule.check u ⟨[.string "never"]⟩ =
          [⟨"Extra semicolon.", 1, 6⟩, ⟨"Extra semicolon.", 3, 4⟩] ∧
        textOf (mend (Semi.remedy u ⟨[.string "never"]⟩) u.tokens.toList) =
          "a = b\n\n++c // d\n" ∧
        (mend (Semi.remedy u ⟨[.string "never"]⟩) u.significantTokens).map (·.text) =
          ["a", "=", "b", "++", "c"] :=
      exists_ok (by decide +kernel)
    obtain ⟨-, -, -, -, ts, hLex, hSame⟩ := semicolons_mended "a.js" _ ⟨[.string "never"]⟩ u hu
    exact ⟨u, ts, hu, hFound, hText ▸ hLex, hSame ▸ hPieces⟩
  · obtain ⟨u, hu, hFound, hText, hPieces⟩ : ∃ u,
        SourceUnit.parse "a.js" "return\n/;/g" = .ok u ∧
        Semi.rule.check u .empty =
          [⟨"Missing semicolon.", 1, 7⟩, ⟨"Missing semicolon.", 2, 5⟩] ∧
        textOf (mend (Semi.remedy u .empty) u.tokens.toList) = "return;\n/;/g;" ∧
        mend (Semi.remedy u .empty) u.significantTokens =
          [⟨.keyword, "return"⟩, .semicolon, ⟨.regex, "/;/g"⟩, .semicolon] :=
      exists_ok (by decide +kernel)
    obtain ⟨-, -, -, -, ts, hLex, hSame⟩ := semicolons_mended "a.js" _ .empty u hu
    exact ⟨u, ts, hu, hFound, hText ▸ hLex, hSame.trans hPieces⟩

end RuleScout
