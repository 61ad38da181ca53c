import RuleScout.Proofs.CodeBrackets
import RuleScout.Proofs.Locations
import RuleScout.Proofs.Substitutions
import RuleScout.Proofs.TokenOrder
import RuleScout.Proofs.Trial

/-!
# Competing styles

Some rules leave a choice of styles. Whatever such a rule looks at is written in one of them: that
style accepts it, the others report it, and so of all styles tried on a corpus at most one is clean.
Templates are the exception. One that shows the mark of a substitution behind a backslash, or that
stands behind the parenthesis of a header, is left alone under every style.
-/

set_option autoImplicit false

namespace RuleScout

variable {u : SourceUnit} {path text : String} {names : List String} {r : Rule} {p q k : Nat}
  {t n : Token} {ts : List Token} {l : Lexeme} {c : Code} {name : String} {v : Violation}

/-! ## Choices -/

/-- Of the styles in `names` one accepts, and the others report. -/
def OneAccepts (names : List String) (reports : String → Prop) : Prop :=
  ∃ n ∈ names, ¬reports n ∧ ∀ m ∈ names, m ≠ n → reports m

theorem oneAccepts_pair {a b : String} {reports : String → Prop} (h : reports a ↔ ¬reports b) :
    OneAccepts [a, b] reports := by
  by_cases hb : reports b
  · refine ⟨a, List.mem_cons_self, fun ha => h.mp ha hb, fun m hm hma => ?_⟩
    rw [List.mem_pair] at hm
    rwa [hm.resolve_left hma]
  · refine ⟨b, by simp, hb, fun m hm hmb => ?_⟩
    rw [List.mem_pair] at hm
    rw [hm.resolve_right hmb]
    exact h.mpr hb

/-- Under the style, the rule finds something in the unit. -/
def Reports (r : Rule) (u : SourceUnit) (name : String) : Prop :=
  r.check u ⟨[.string name]⟩ ≠ []

/-- Under the style, the rule finds something at the place of the token. -/
def ReportsAt (r : Rule) (u : SourceUnit) (t : Token) (name : String) : Prop :=
  ∃ v ∈ r.check u ⟨[.string name]⟩, v.line = t.line ∧ v.column = t.column

theorem ReportsAt.reports (h : ReportsAt r u t name) : Reports r u name := by
  obtain ⟨v, hv, -⟩ := h
  exact List.ne_nil_of_mem hv

/-- A style that reports something in one of the units is not clean. -/
theorem length_clean_le {corpus : Corpus} {base : Config} {reports : String → Prop}
    (hr : r ∈ Catalog.builtin.rules) (hu : u ∈ corpus.units) (hNames : names.Nodup)
    (hOne : OneAccepts names reports) (hReports : ∀ name, reports name → Reports r u name) :
    (names.filter fun name =>
      Trial.isClean Catalog.builtin base corpus ⟨r.id, [.string name]⟩).length ≤ 1 := by
  obtain ⟨n, -, -, hOthers⟩ := hOne
  refine (List.subperm_of_subset (hNames.filter _) fun m hm => ?_).length_le.trans_eq
    (List.length_singleton (a := n))
  obtain ⟨hm, hClean⟩ := List.mem_filter.mp hm
  by_contra hNot
  have hReported := hReports m (hOthers m hm fun hEq => hNot (List.mem_singleton.mpr hEq))
  rw [Trial.isClean_eq_accepts, Catalog.accepts, Catalog.builtin.get?_of_mem r hr, Option.all_some,
    Rule.accepts, List.all_eq_true] at hClean
  exact hReported (List.isEmpty_iff.mp (hClean u hu))

/-! ## Quotes -/

namespace Template

/-- The part shows the mark of a substitution. -/
def Part.Marked : Part → Prop
  | .escape behind => ['$', '{'] <+: behind
  | .substitution _ => True

theorem Composed.head?_dropLast {cs : List Char} {ps : List Part} (h : Composed cs ps) :
    cs.dropLast.head? = some '{' ↔ cs.head? = some '{' := by
  cases h with
  | close => simp
  | escape c hRest => simp
  | substitution hRest => simp
  | plain hOpen hRest => cases hRest <;> simp

theorem isPrefixOf_mark_iff {d : Char} {cs : List Char} :
    ['$', '{'].isPrefixOf (d :: cs) = true ↔ d = '$' ∧ cs.head? = some '{' := by
  cases cs with
  | nil => simp
  | cons e cs => simp [@eq_comm _ '$' d, @eq_comm _ '{' e]

theorem Composed.ne_nil {cs : List Char} {ps : List Part} (h : Composed cs ps) : cs ≠ [] := by
  rintro rfl
  cases h

theorem Composed.occursIn_iff {cs : List Char} {ps : List Part} (h : Composed cs ps) :
    Text.occursIn ['$', '{'] cs.dropLast = true ↔ ∃ part ∈ ps, part.Marked := by
  induction h with
  | close => simp [Text.occursIn]
  | @escape d cs ps hRest ih =>
    have hMark : ['$', '{'] <+: d :: cs ↔ d = '$' ∧ cs.head? = some '{' := by
      rw [← List.isPrefixOf_iff_prefix, isPrefixOf_mark_iff]
    rw [List.dropLast_cons_of_ne_nil (by simp), List.dropLast_cons_of_ne_nil hRest.ne_nil,
      Text.occursIn, Text.occursIn, Bool.or_eq_true, Bool.or_eq_true, isPrefixOf_mark_iff,
      isPrefixOf_mark_iff, hRest.head?_dropLast, ih]
    simp [Part.Marked, hMark]
  | @substitution body cs ps hRest ih =>
    refine iff_of_true ?_ ⟨_, List.mem_cons_self, trivial⟩
    rw [List.dropLast_cons_of_ne_nil (by simp), List.dropLast_cons_of_ne_nil (by simp),
      Text.occursIn, Bool.or_eq_true, isPrefixOf_mark_iff]
    exact .inl ⟨rfl, rfl⟩
  | @plain d cs ps hOpen hRest ih =>
    rw [List.dropLast_cons_of_ne_nil hRest.ne_nil, Text.occursIn, Bool.or_eq_true,
      isPrefixOf_mark_iff, hRest.head?_dropLast, or_iff_right hOpen, ih]

end Template

namespace Quotes

def styles : List String := ["double", "single", "backtick"]

/-- A template without substitutions and line breaks. -/
structure IsBare (l : Lexeme) : Prop where
  template : l.kind = .template
  whole : ∀ body, .substitution body ∉ Template.parts 0 l.chars.tail
  inline : '\n' ∉ body l

/-- Nothing stands before `p` that a template could be the tag of: a name, a bracket, or a
parenthesis that ends no header. -/
def IsFree (c : Code) (p : Nat) : Prop :=
  ∀ l ∈ c.before? p, l.kind ≠ .identifier ∧ l.isPunct "]" = false ∧
    (l.isPunct ")" = true → (Code.prev p).any c.closesHeader = true)

/-- A dollar sign and a brace stand in the template, behind a backslash, or a parenthesis in front
of it. -/
def IsMisread (c : Code) (p : Nat) (l : Lexeme) : Prop :=
  (∃ behind, .escape behind ∈ Template.parts 0 l.chars.tail ∧ ['$', '{'] <+: behind) ∨
    (c.before? p).any (·.isPunct ")") = true

theorem reportsAt_iff (h : SourceUnit.parse path text = .ok u) (ht : u.significantTokens[p]? = some t) :
    ReportsAt rule u t name ↔ isWrong u.code (.ofName name) false false p = true := by
  have hFound : rule.check u ⟨[.string name]⟩ = (sites u.code ⟨[.string name]⟩).filterMap
      (Site.locate? u.significantTokens) := rfl
  have hSites : sites u.code ⟨[.string name]⟩ =
      (u.code.positions.filter (isWrong u.code (.ofName name) false false)).map
        (.start · ("Strings must use " ++ (Style.ofName name).describe ++ ".")) := rfl
  rw [ReportsAt, hFound, hSites, List.filterMap_map]
  constructor
  · rintro ⟨v, hv, hLine, hColumn⟩
    obtain ⟨q, hq, hLocate⟩ := List.mem_filterMap.mp hv
    obtain ⟨n, hn, rfl⟩ := Option.map_eq_some_iff.mp hLocate
    by_cases hpq : q = p
    · exact hpq ▸ (List.mem_filter.mp hq).2
    · exact absurd (Prod.ext hLine hColumn) (SourceUnit.place_ne h hn ht hpq)
  · intro hWrong
    have hp : p ∈ u.code.positions := by
      obtain ⟨l, hl, -⟩ := (Option.any_eq_true _ _).mp hWrong
      exact List.mem_range.mpr (Array.getElem?_eq_some_iff.mp hl).1
    refine ⟨.atStart t ("Strings must use " ++ (Style.ofName name).describe ++ "."),
      List.mem_filterMap.mpr ⟨p, List.mem_filter.mpr ⟨hp, hWrong⟩, ?_⟩, rfl, rfl⟩
    exact Option.map_eq_some_iff.mpr ⟨t, ht, rfl⟩

theorem isWrong_string_iff (hl : c.at? p = some l) (hKind : l.kind = .string) (style : Style) :
    isWrong c style false false p = true ↔ l.quote? ≠ some style.quote := by
  simp [isWrong, hl, hKind, isExcused]

theorem isWrong_template_iff (hl : c.at? p = some l) (hKind : l.kind = .template) (style : Style) :
    isWrong c style false false p = true ↔
      style ≠ .backtick ∧ isPlain l = true ∧ isTagged c p = false := by
  simp [isWrong, hl, hKind, isExcused, and_assoc]

/-- The search for the two characters and the lexer differ over escapes alone. -/
theorem isPlain_iff (hLex : lex text = .ok ts) (ht : t ∈ ts) (hBare : IsBare t.toLexeme) :
    isPlain t.toLexeme = true ↔
      ¬∃ behind, .escape behind ∈ Template.parts 0 t.chars.tail ∧ ['$', '{'] <+: behind := by
  obtain ⟨tail, hChars, hSpent, -⟩ := UnusedNames.chars_of_template hLex ht hBare.template
  have hTail : t.chars.tail = tail := by rw [hChars, List.tail_cons]
  have hBody : body t.toLexeme = tail.dropLast := by rw [body, hTail]
  have hInline := hBare.inline
  have hWhole := hBare.whole
  rw [hTail] at hWhole
  rw [isPlain, hTail, hBody, Bool.and_eq_true, Bool.not_eq_true', ← Bool.not_eq_true,
    (Template.composed_parts tail hSpent).occursIn_iff]
  rw [hBody] at hInline
  refine (and_iff_left (by simpa using hInline)).trans (not_congr ⟨?_, ?_⟩)
  · rintro ⟨part, hPart, hMarked⟩
    cases part with
    | escape behind => exact ⟨behind, hPart, hMarked⟩
    | substitution body => exact absurd hPart (hWhole body)
  · rintro ⟨behind, hPart, hMarked⟩
    exact ⟨_, hPart, hMarked⟩

theorem isTagged_iff (hFree : IsFree c p) :
    isTagged c p = true ↔ (c.before? p).any (·.isPunct ")") = true := by
  rw [isTagged]
  cases hBefore : c.before? p with
  | none => simp
  | some l =>
    obtain ⟨hName, hSquare, -⟩ := hFree l hBefore
    simp [hName, hSquare]

theorem Reads.quote_of_string {cur : Cursor} {kind : TokenKind} {d : Char} {pre rest : List Char}
    (h : cur.Reads kind d pre rest) (hKind : kind = .string) : d = '"' ∨ d = '\'' := by
  cases h with
  | string hQuote hBody => exact hQuote
  | word hStart hRun => split at hKind <;> cases hKind
  | _ => cases hKind

theorem code_at?_eq (hAt : u.significantTokens[p]? = some t) : u.code.at? p = some t.toLexeme := by
  rw [SourceUnit.code_at?, hAt, Option.map_some]

theorem mem_tokens (hAt : u.significantTokens[p]? = some t) : t ∈ u.tokens.toList :=
  List.mem_of_mem_filter (List.mem_of_getElem? hAt)

section Sites

variable (h : SourceUnit.parse path text = .ok u) (hAt : u.significantTokens[p]? = some t)
include h hAt

theorem string_oneAccepts (hKind : t.kind = .string) :
    OneAccepts styles (ReportsAt rule u t) := by
  obtain ⟨us, vs, hTokens⟩ := List.append_of_mem (mem_tokens hAt)
  have hLex : lex text = .ok (us ++ t :: vs) := hTokens ▸ SourceUnit.lex_tokens h
  obtain ⟨d, pre, rest, -, hChars, hReads⟩ := (cuts_of_lex hLex).reads
  have hQuote : t.quote? = some d := by rw [Lexeme.quote?, hKind, hChars]; rfl
  have hReports (name : String) : ReportsAt rule u t name ↔ d ≠ (Style.ofName name).quote := by
    rw [reportsAt_iff h hAt, isWrong_string_iff (code_at?_eq hAt) hKind, hQuote, ne_eq,
      Option.some_inj]
  simp only [OneAccepts, hReports]
  rcases Reads.quote_of_string hReads hKind with rfl | rfl
  · exact ⟨"double", by decide, by decide, by decide⟩
  · exact ⟨"single", by decide, by decide, by decide⟩

theorem template_reportsAt_iff (hBare : IsBare t.toLexeme) (hFree : IsFree u.code p) :
    ReportsAt rule u t name ↔
      Style.ofName name ≠ .backtick ∧ ¬IsMisread u.code p t.toLexeme := by
  rw [reportsAt_iff h hAt, isWrong_template_iff (code_at?_eq hAt) hBare.template,
    isPlain_iff (SourceUnit.lex_tokens h) (mem_tokens hAt) hBare, ← Bool.not_eq_true,
    isTagged_iff hFree, IsMisread, not_or]

theorem template_oneAccepts (hBare : IsBare t.toLexeme) (hFree : IsFree u.code p)
    (hRead : ¬IsMisread u.code p t.toLexeme) : OneAccepts styles (ReportsAt rule u t) := by
  simp only [OneAccepts, template_reportsAt_iff h hAt hBare hFree, hRead, not_false_eq_true,
    and_true]
  exact ⟨"backtick", by decide, by decide, by decide⟩

end Sites

end Quotes

theorem exists_token (hp : p < u.code.size) : ∃ n, u.significantTokens[p]? = some n := by
  have hSome : u.code.at? p = some u.code.lexemes[p] := Array.getElem?_eq_getElem hp
  rw [SourceUnit.code_at?] at hSome
  exact (Option.map_eq_some_iff.mp hSome).imp fun n hn => hn.1

namespace CommaDangle

/-- The closing bracket ends a list that is not empty. -/
structure EndsList (c : Code) (k : Nat) : Prop where
  closing : isListEnd c k = true
  nonempty : c.matching k ≠ Code.prev k

/-- The closing bracket stands on a later line than the last element before it. -/
def IsSpread (c : Code) (k : Nat) : Prop :=
  ∃ p last l closer, tail? c k = some (p, last) ∧ c.at? last = some l ∧ c.at? k = some closer ∧
    l.endLine < closer.line

/-- Under the policy, the rule finds something at the end of the list. -/
def ReportsList (u : SourceUnit) (k : Nat) (name : String) : Prop :=
  ∃ s v, site? u.code (.ofName name) k = some s ∧ s.locate? u.significantTokens = some v ∧
    v ∈ rule.check u ⟨[.string name]⟩

theorem closing_of_isListEnd (h : isListEnd c k = true) :
    ∃ b : Bracket, c.isPunct k b.closing = true := by
  rw [isListEnd, Bool.or_eq_true, Bool.and_eq_true] at h
  exact h.elim (fun hSquare => ⟨.square, hSquare⟩) fun hCurly => ⟨.curly, hCurly.1⟩

theorem EndsList.exists_tail (hFits : c.Fits) (h : EndsList c k) :
    ∃ p last, tail? c k = some (p, last) ∧ p < k ∧ last < k := by
  obtain ⟨b, hClosing⟩ := closing_of_isListEnd h.closing
  obtain ⟨o, hPair⟩ := hFits.exists_opener hClosing
  have hMatching := hFits.matching_closer hPair
  have hLt := hPair.lt
  have hNonempty := h.nonempty
  obtain ⟨p, rfl⟩ := Nat.exists_eq_add_one_of_ne_zero (Nat.ne_zero_of_lt hLt)
  rw [hMatching, Code.prev, ne_eq, Option.some_inj] at hNonempty
  rw [tail?, if_pos h.closing, Code.prev, Option.bind_some, hMatching,
    if_neg (by simpa using hNonempty)]
  split
  · obtain ⟨last, rfl⟩ := Nat.exists_eq_add_one_of_ne_zero (show p ≠ 0 by omega)
    exact ⟨last + 1, last, rfl, by omega, by omega⟩
  · exact ⟨p, p, rfl, by omega, by omega⟩

theorem isSome_site?_iff {policy : Policy} {p last : Nat} {l closer : Lexeme}
    (hTail : tail? c k = some (p, last)) (hLast : c.at? last = some l)
    (hCloser : c.at? k = some closer) :
    (site? c policy k).isSome ↔
      policy.wantsComma (l.endLine < closer.line) = some (!c.isPunct p ",") := by
  simp only [site?, hTail, hCloser, hLast, Option.any_some]
  generalize c.isPunct p "," = trailing
  cases policy.wantsComma (l.endLine < closer.line) with
  | none => simp
  | some wanted => cases wanted <;> cases trailing <;> simp

theorem EndsList.lt_size (h : EndsList c k) : k < c.size :=
  Code.lt_size_of_isPunct (closing_of_isListEnd h.closing).choose_spec

theorem position_of_site? {policy : Policy} {s : Site} {p last : Nat}
    (hTail : tail? c k = some (p, last)) (h : site? c policy k = some s) :
    s.position = p ∨ s.position = last := by
  rw [site?, hTail] at h
  split at h
  · rename_i hTail' hCloser
    cases hTail'
    dsimp only at h
    split at h
    · cases h
      exact .inl rfl
    · cases h
      exact .inr rfl
    · cases h
  · cases h

section Lists

variable (h : SourceUnit.parse path text = .ok u) (hList : EndsList u.code k)
include h hList

theorem reportsList_iff :
    ReportsList u k name ↔ (site? u.code (.ofName name) k).isSome := by
  obtain ⟨p, last, hTail, hp, hLast⟩ := hList.exists_tail (SourceUnit.code_fits h)
  have hk := hList.lt_size
  constructor
  · rintro ⟨s, v, hSite, -⟩
    rw [hSite]
    rfl
  · intro hSome
    obtain ⟨s, hSite⟩ := Option.isSome_iff_exists.mp hSome
    have hPosition : s.position < u.code.size := by
      rcases position_of_site? hTail hSite with hEq | hEq <;> omega
    obtain ⟨n, hn⟩ := exists_token hPosition
    have hLocate : s.locate? u.significantTokens =
        some (if s.behind then .atEnd n s.message else .atStart n s.message) := by
      rw [Site.locate?, hn, Option.map_some]
    refine ⟨s, _, hSite, hLocate, ?_⟩
    exact List.mem_filterMap.mpr
      ⟨s, List.mem_filterMap.mpr ⟨k, List.mem_range.mpr hk, hSite⟩, hLocate⟩

/-- What the policies say of one list, by its trailing comma and by the lines. -/
theorem reportsList_by_name :
    (ReportsList u k "never" ↔ ¬ReportsList u k "always") ∧
    (ReportsList u k "always-multiline" ↔
      ReportsList u k "always" ∧ IsSpread u.code k ∨ ReportsList u k "never" ∧ ¬IsSpread u.code k) ∧
    (ReportsList u k "only-multiline" ↔ ReportsList u k "never" ∧ ¬IsSpread u.code k) := by
  obtain ⟨p, last, hTail, hp, hLast⟩ := hList.exists_tail (SourceUnit.code_fits h)
  have hk := hList.lt_size
  obtain ⟨l, hl⟩ : ∃ l, u.code.at? last = some l :=
    ⟨_, Array.getElem?_eq_getElem (Nat.lt_trans hLast hk)⟩
  obtain ⟨closer, hCloser⟩ : ∃ closer, u.code.at? k = some closer :=
    ⟨_, Array.getElem?_eq_getElem hk⟩
  have hSpread : IsSpread u.code k ↔ l.endLine < closer.line := by
    constructor
    · rintro ⟨p', last', l', closer', hTail', hl', hCloser', hLine⟩
      cases hTail.symm.trans hTail'
      cases hl.symm.trans hl'
      cases hCloser.symm.trans hCloser'
      exact hLine
    · exact fun hLine => ⟨p, last, l, closer, hTail, hl, hCloser, hLine⟩
  simp only [reportsList_iff h hList, isSome_site?_iff hTail hl hCloser, hSpread, Policy.ofName]
  cases u.code.isPunct p "," <;> by_cases hLine : l.endLine < closer.line <;>
    simp [Policy.wantsComma, hLine]

end Lists

end CommaDangle

namespace Layout

theorem eq_of_same_place (h : SourceUnit.parse path text = .ok u) (ht : t ∈ u.tokens.toList)
    (hn : n ∈ u.tokens.toList) (hLine : t.line = n.line) (hColumn : t.column = n.column) : t = n := by
  have hSorted := (cuts_of_lex (SourceUnit.lex_tokens h)).ordered.sorted
  refine hSorted.imp (S := fun t n => t.line = n.line ∧ t.column = n.column → t = n) ?_
    |>.forall_of_forall_of_flip (fun _ _ _ => rfl) (hSorted.imp ?_) ht hn ⟨hLine, hColumn⟩
  all_goals
    intro t n hBefore hSame
    rw [Token.Precedes] at hBefore
    omega

theorem newline_reportsAt_iff (h : SourceUnit.parse path text = .ok u) (ht : t ∈ u.tokens.toList)
    (hKind : t.kind = .newline) :
    ReportsAt linebreakStyle u t name ↔ t.text ≠ (Linebreak.ofName name).text := by
  have hFound : linebreakStyle.check u ⟨[.string name]⟩ =
      (u.tokens.toList.filter fun t => t.kind = .newline && t.text ≠ (Linebreak.ofName name).text).map
        (.atStart · (Linebreak.ofName name).message) := rfl
  rw [ReportsAt, hFound]
  constructor
  · rintro ⟨v, hv, hLine, hColumn⟩
    obtain ⟨n, hn, rfl⟩ := List.mem_map.mp hv
    rw [List.mem_filter, Bool.and_eq_true, decide_eq_true_iff, decide_eq_true_iff] at hn
    obtain rfl := eq_of_same_place h hn.1 ht hLine hColumn
    exact hn.2.2
  · intro hText
    refine ⟨_, List.mem_map.mpr ⟨t, List.mem_filter.mpr ⟨ht, ?_⟩, rfl⟩, rfl, rfl⟩
    rw [Bool.and_eq_true, decide_eq_true_iff, decide_eq_true_iff]
    exact ⟨hKind, hText⟩

theorem newline_oneAccepts (h : SourceUnit.parse path text = .ok u) (ht : t ∈ u.tokens.toList)
    (hKind : t.kind = .newline) (hText : t.text ≠ "\r") :
    OneAccepts ["unix", "windows"] (ReportsAt linebreakStyle u t) := by
  refine oneAccepts_pair ?_
  rw [newline_reportsAt_iff h ht hKind, newline_reportsAt_iff h ht hKind]
  obtain ⟨us, vs, hTokens⟩ := List.append_of_mem ht
  have hLex : lex text = .ok (us ++ t :: vs) := hTokens ▸ SourceUnit.lex_tokens h
  obtain ⟨d, pre, rest, -, hChars, hReads⟩ := (cuts_of_lex hLex).reads
  have hOwn {s : String} (hs : t.chars = s.toList) : t.text = s := String.toList_inj.mp hs
  rcases hReads.chars_of_newline hKind with hFeed | hBoth | hLone
  · rw [hOwn (s := "\n") (hChars.trans hFeed)]
    decide
  · rw [hOwn (s := "\r\n") (hChars.trans hBoth)]
    decide
  · exact absurd (hOwn (s := "\r") (hChars.trans hLone)) hText

theorem ending_reports_iff (h : SourceUnit.parse path text = .ok u) (hText : text ≠ "") :
    Reports eolLast u name ↔ (endFault? name u.endsWithNewline).isSome := by
  have hOwn : u.text = text := by
    obtain ⟨ts, n, -, -, rfl⟩ := SourceUnit.parse_eq_ok_iff.mp h
    rfl
  have hSplit : text.toList = [] ++ text.toList := rfl
  have hNonempty : text.toList ≠ [] := mt String.toList_eq_nil_iff.mp hText
  obtain ⟨l, hFirst, -⟩ := SourceUnit.exists_line h hSplit fun hNil => absurd hNil hNonempty
  obtain ⟨last, hLast⟩ : ∃ last, u.lines.getLast? = some last :=
    ⟨_, List.getLast?_eq_some_getLast (List.ne_nil_of_mem (List.mem_of_getElem? hFirst))⟩
  have hName : Options.string ⟨[.string name]⟩ 0 "always" = name := rfl
  have hEmpty : u.text.isEmpty = false := by
    rw [hOwn]
    simpa using hText
  simp only [Reports, eolLast, hEmpty, hLast, hName]
  cases endFault? name u.endsWithNewline <;> simp

theorem ending_oneAccepts (h : SourceUnit.parse path text = .ok u) (hText : text ≠ "") :
    OneAccepts ["always", "never"] (Reports eolLast u) := by
  refine oneAccepts_pair ?_
  rw [ending_reports_iff h hText, ending_reports_iff h hText]
  cases u.endsWithNewline <;> simp [endFault?]

end Layout

/-- A place that every style of a rule has something to say about: the styles, and those of them
that report it. -/
inductive Contested (u : SourceUnit) : Rule → List String → (String → Prop) → Prop where
  | string {p : Nat} {t : Token} (hAt : u.significantTokens[p]? = some t)
      (hKind : t.kind = .string) :
      Contested u Quotes.rule Quotes.styles (ReportsAt Quotes.rule u t)
  | template {p : Nat} {t : Token} (hAt : u.significantTokens[p]? = some t)
      (hBare : Quotes.IsBare t.toLexeme) (hFree : Quotes.IsFree u.code p)
      (hRead : ¬Quotes.IsMisread u.code p t.toLexeme) :
      Contested u Quotes.rule Quotes.styles (ReportsAt Quotes.rule u t)
  | list {k : Nat} (hList : CommaDangle.EndsList u.code k) :
      Contested u CommaDangle.rule ["never", "always"] (CommaDangle.ReportsList u k)
  | newline {t : Token} (ht : t ∈ u.tokens.toList) (hKind : t.kind = .newline)
      (hText : t.text ≠ "\r") :
      Contested u Layout.linebreakStyle ["unix", "windows"] (ReportsAt Layout.linebreakStyle u t)
  | ending (hText : u.text ≠ "") :
      Contested u Layout.eolLast ["always", "never"] (Reports Layout.eolLast u)

theorem Contested.oneAccepts {reports : String → Prop} (h : SourceUnit.parse path text = .ok u)
    (hSite : Contested u r names reports) : OneAccepts names reports := by
  cases hSite with
  | string hAt hKind => exact Quotes.string_oneAccepts h hAt hKind
  | template hAt hBare hFree hRead => exact Quotes.template_oneAccepts h hAt hBare hFree hRead
  | list hList => exact oneAccepts_pair (CommaDangle.reportsList_by_name h hList).1
  | newline ht hKind hText => exact Layout.newline_oneAccepts h ht hKind hText
  | ending hText =>
    obtain ⟨ts, n, -, -, rfl⟩ := SourceUnit.parse_eq_ok_iff.mp h
    exact Layout.ending_oneAccepts h hText

theorem Contested.reports {reports : String → Prop} (hSite : Contested u r names reports)
    (hReports : reports name) : Reports r u name := by
  cases hSite with
  | string | template | newline => exact ReportsAt.reports hReports
  | list =>
    obtain ⟨s, v, -, -, hv⟩ := hReports
    exact List.ne_nil_of_mem hv
  | ending => exact hReports

theorem Contested.registered {reports : String → Prop} (hSite : Contested u r names reports) :
    r ∈ Catalog.builtin.rules ∧ names.Nodup := by
  rw [Catalog.rules_builtin]
  cases hSite <;> exact ⟨by simp, by decide⟩

/-- Every contested place is accepted by one style, so at most one of the styles is clean on a
corpus with such a place. No style reports a template that is misread. -/
theorem competing_styles_exclusive (h : SourceUnit.parse path text = .ok u) :
    (∀ r names reports, Contested u r names reports → OneAccepts names reports ∧
      ∀ corpus base, u ∈ corpus.units → (names.filter fun name =>
        Trial.isClean Catalog.builtin base corpus ⟨r.id, [.string name]⟩).length ≤ 1) ∧
    (∀ k, CommaDangle.EndsList u.code k →
      (CommaDangle.ReportsList u k "always-multiline" ↔
        CommaDangle.ReportsList u k "always" ∧ CommaDangle.IsSpread u.code k ∨
        CommaDangle.ReportsList u k "never" ∧ ¬CommaDangle.IsSpread u.code k) ∧
      (CommaDangle.ReportsList u k "only-multiline" ↔
        CommaDangle.ReportsList u k "never" ∧ ¬CommaDangle.IsSpread u.code k)) ∧
    ∀ p t, u.significantTokens[p]? = some t → Quotes.IsBare t.toLexeme → Quotes.IsFree u.code p →
      Quotes.IsMisread u.code p t.toLexeme → ∀ name, ¬ReportsAt Quotes.rule u t name := by
  refine ⟨fun r names reports hSite => ?_, fun k hList => ?_, fun p t hAt hBare hFree hRead name => ?_⟩
  · obtain ⟨hRegistered, hNames⟩ := hSite.registered
    refine ⟨hSite.oneAccepts h, fun corpus base hu => ?_⟩
    exact length_clean_le hRegistered hu hNames (hSite.oneAccepts h) fun name => hSite.reports
  · exact (CommaDangle.reportsList_by_name h hList).2
  · rw [Quotes.template_reportsAt_iff h hAt hBare hFree]
    exact fun hReports => hReports.2 hRead

theorem competing_styles_exclusive_template :
    ∃ u t, SourceUnit.parse "a.js" "x = \x60a\x60;\n" = .ok u ∧ u.significantTokens[2]? = some t ∧
      t.kind = .template ∧ OneAccepts Quotes.styles (ReportsAt Quotes.rule u t) ∧
      (Quotes.styles.filter fun name =>
        Trial.isClean Catalog.builtin {} ⟨[u]⟩ ⟨"quotes", [.string name]⟩).length ≤ 1 := by
  let t : Token := ⟨⟨.template, "\x60a\x60", 1⟩, 4, 5⟩
  obtain ⟨u, hu, hAt, hBefore⟩ : ∃ u, SourceUnit.parse "a.js" "x = \x60a\x60;\n" = .ok u ∧
      u.significantTokens[2]? = some t ∧ u.code.before? 2 = some ⟨.punctuator, "=", 1⟩ :=
    exists_ok (by decide +kernel)
  have hParts : Template.parts 0 t.chars.tail = [] := by decide +kernel
  have hBare : Quotes.IsBare t.toLexeme := ⟨rfl, by simp [hParts], by decide⟩
  have hFree : Quotes.IsFree u.code 2 := by
    intro l hl
    cases hBefore.symm.trans hl
    exact ⟨by decide, by decide, nofun⟩
  have hRead : ¬Quotes.IsMisread u.code 2 t.toLexeme := by
    rw [Quotes.IsMisread, hParts, hBefore]
    simp [Lexeme.isPunct]
  obtain ⟨hOne, hClean⟩ := (competing_styles_exclusive hu).1 _ _ _ (.template hAt hBare hFree hRead)
  exact ⟨u, t, hu, hAt, rfl, hOne, hClean ⟨[u]⟩ {} List.mem_cons_self⟩

/-- A template without a substitution, and one behind a header: no style reports them, and all
styles are clean. -/
theorem competing_styles_exclusive_exceptions :
    (∃ u t, SourceUnit.parse "a.js" "x = \x60\\$\x7ba\x7d\x60;\n" = .ok u ∧
      u.significantTokens[2]? = some t ∧ Quotes.IsBare t.toLexeme ∧ Quotes.IsFree u.code 2 ∧
      ∀ name ∈ Quotes.styles, Quotes.rule.check u ⟨[.string name]⟩ = [] ∧
        Trial.isClean Catalog.builtin {} ⟨[u]⟩ ⟨"quotes", [.string name]⟩ = true) ∧
    ∃ u t, SourceUnit.parse "a.js" "if (a) \x60x\x60;\n" = .ok u ∧
      u.significantTokens[4]? = some t ∧ Quotes.IsBare t.toLexeme ∧ Quotes.IsFree u.code 4 ∧
      ∀ name ∈ Quotes.styles, Quotes.rule.check u ⟨[.string name]⟩ = [] ∧
        Trial.isClean Catalog.builtin {} ⟨[u]⟩ ⟨"quotes", [.string name]⟩ = true := by
  constructor
  · let t : Token := ⟨⟨.template, "\x60\\$\x7ba\x7d\x60", 1⟩, 4, 5⟩
    obtain ⟨u, hu, hAt, hBefore, hClean⟩ : ∃ u,
        SourceUnit.parse "a.js" "x = \x60\\$\x7ba\x7d\x60;\n" = .ok u ∧
        u.significantTokens[2]? = some t ∧ u.code.before? 2 = some ⟨.punctuator, "=", 1⟩ ∧
        ∀ name ∈ Quotes.styles, Quotes.rule.check u ⟨[.string name]⟩ = [] ∧
          Trial.isClean Catalog.builtin {} ⟨[u]⟩ ⟨"quotes", [.string name]⟩ = true :=
      exists_ok (by decide +kernel)
    have hParts : Template.parts 0 t.chars.tail = [.escape "$\x7ba\x7d\x60".toList] := by
      decide +kernel
    refine ⟨u, t, hu, hAt, ⟨rfl, by simp [hParts], by decide⟩, fun l hl => ?_, hClean⟩
    cases hBefore.symm.trans hl
    exact ⟨by decide, by decide, nofun⟩
  · let t : Token := ⟨⟨.template, "\x60x\x60", 1⟩, 7, 8⟩
    obtain ⟨u, hu, hAt, hBefore, hHeader, hClean⟩ : ∃ u,
        SourceUnit.parse "a.js" "if (a) \x60x\x60;\n" = .ok u ∧
        u.significantTokens[4]? = some t ∧ u.code.before? 4 = some ⟨.punctuator, ")", 1⟩ ∧
        u.code.closesHeader 3 = true ∧
        ∀ name ∈ Quotes.styles, Quotes.rule.check u ⟨[.string name]⟩ = [] ∧
          Trial.isClean Catalog.builtin {} ⟨[u]⟩ ⟨"quotes", [.string name]⟩ = true :=
      exists_ok (by decide +kernel)
    have hParts : Template.parts 0 t.chars.tail = [] := by decide +kernel
    refine ⟨u, t, hu, hAt, ⟨rfl, by simp [hParts], by decide⟩, fun l hl => ?_, hClean⟩
    cases hBefore.symm.trans hl
    exact ⟨by decide, by decide, fun _ => hHeader⟩

end RuleScout
