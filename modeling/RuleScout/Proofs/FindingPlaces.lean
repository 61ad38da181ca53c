import RuleScout.Proofs.CodeView
import RuleScout.Proofs.ExactWidths
import RuleScout.Proofs.Locations

/-!
# Where findings stand

A finding is reported where a token or a line starts, behind a token, behind the last line, or where
the spaces at the end of a line of a comment start. All these places are in the file, except that
the column behind a token is counted as if the token stood on one line.
-/

set_option autoImplicit false

namespace RuleScout

open Text Line

/-- The place is on a line of the unit. -/
structure OnLine (u : SourceUnit) (line column : Nat) : Prop where
  line_pos : 1 ≤ line
  line_le : line ≤ u.lines.length
  column_pos : 1 ≤ column

/-- The place is in its line or directly behind it. -/
structure Fits (u : SourceUnit) (line column : Nat) : Prop extends OnLine u line column where
  column_le : ∀ l, u.lines[line - 1]? = some l → column ≤ l.chars.length + 1

/-! ## Places of tokens -/

/-- Where a token stands in a text, between `xs` and `ys`. -/
structure Stands (text : String) (t : Token) (xs ys : List Char) : Prop where
  text : text.toList = xs ++ (t.chars ++ ys)
  nonempty : t.chars ≠ []
  last : t.kind ≠ .newline → t.chars.getLast? ≠ some '\n'
  line : t.line = xs.count '\n' + 1
  column : t.column = (lastPart xs).length + 1

section Places

variable {u : SourceUnit} {path text : String} {xs ys cs kept : List Char} {t : Token}
  {v : Violation}

theorem fits_line (h : SourceUnit.parse path text = .ok u) {l : Line} (hl : l ∈ u.lines)
    {column : Nat} (hPos : 1 ≤ column) (hLe : column ≤ l.chars.length + 1) :
    Fits u l.number column := by
  obtain ⟨j, hj⟩ := List.mem_iff_getElem?.mp hl
  have hNumber : l.number = 1 + j := by
    have hLine := SourceUnit.getElem?_lines h j
    rw [hj, Option.map_some, eq_comm, Option.map_eq_some_iff] at hLine
    obtain ⟨part, -, hFields⟩ := hLine
    exact (Prod.mk.inj hFields).1.symm
  obtain ⟨hLt, -⟩ := List.getElem?_eq_some_iff.mp hj
  refine ⟨⟨by omega, by omega, hPos⟩, fun l' hl' => ?_⟩
  rw [hNumber, Nat.add_sub_cancel_left, hj] at hl'
  cases hl'
  exact hLe

variable (h : SourceUnit.parse path text = .ok u) (hReturn : '\r' ∉ text.toList)
include h hReturn

/-- A place in the text that is not behind its last line feed is on a line. -/
theorem fits_place (hText : text.toList = xs ++ ys) (hEnd : ys = [] → xs.getLast? ≠ some '\n') :
    Fits u (xs.count '\n' + 1) ((lastPart xs).length + 1) := by
  obtain ⟨l, hAt, hNumber, hChars⟩ := SourceUnit.exists_line h hText hEnd
  have hOwn : '\r' ∉ lastPart xs := by
    intro hMem
    refine hReturn ?_
    rw [hText]
    refine List.mem_append_left ys ?_
    rw [lastPart, List.mem_reverse] at hMem
    exact List.mem_reverse.mp ((List.takeWhile_prefix _).mem hMem)
  rw [← hNumber]
  refine fits_line h (List.mem_of_getElem? hAt) (Nat.le_add_left 1 _) (Nat.succ_le_succ ?_)
  rw [hChars]
  exact (dropReturn_eq_self hOwn ▸ dropReturn_prefix_append _ _).length_le

theorem exists_stands (ht : t ∈ u.tokens.toList) : ∃ xs ys, Stands text t xs ys := by
  obtain ⟨us, vs, hTokens⟩ := List.append_of_mem ht
  have hLex : lex text = .ok (us ++ t :: vs) := hTokens ▸ SourceUnit.lex_tokens h
  have hCuts := cuts_of_lex hLex
  have hLone : ∀ s ∈ us, hasLoneReturn s.chars = false := by
    intro s hs
    refine hasLoneReturn_of_not_mem fun hMem => hReturn ?_
    rw [text_around hLex]
    exact List.mem_append_left _ (List.mem_flatMap_of_mem hs hMem)
  obtain ⟨c, pre, rest, -, hChars, hReads⟩ := hCuts.reads
  obtain ⟨hLine, hColumn⟩ := place_of_lex hLex hLone
  refine ⟨_, _, text_around hLex, hCuts.chars_ne_nil t (by simp), fun hKind => ?_, hLine, hColumn⟩
  rw [hChars]
  exact hReads.last_ne_feed hKind

theorem fits_start (ht : t ∈ u.tokens.toList) : Fits u t.line t.column := by
  obtain ⟨xs, ys, hStands⟩ := exists_stands h hReturn ht
  rw [hStands.line, hStands.column]
  refine fits_place h hReturn hStands.text fun hNil => ?_
  exact absurd (List.append_eq_nil_iff.mp hNil).1 hStands.nonempty

/-- Behind a token is a place in the text, but its column is only right when the token stays on its
line. -/
theorem onLine_stop (ht : t ∈ u.tokens.toList) (hKind : t.kind ≠ .newline) :
    OnLine u t.endLine t.endColumn ∧ ('\n' ∉ t.chars → Fits u t.endLine t.endColumn) := by
  obtain ⟨xs, ys, hStands⟩ := exists_stands h hReturn ht
  have hText : text.toList = (xs ++ t.chars) ++ ys := by
    rw [List.append_assoc]
    exact hStands.text
  have hEnd : ys = [] → (xs ++ t.chars).getLast? ≠ some '\n' := by
    intro _
    rw [List.getLast?_append_of_ne_nil _ hStands.nonempty]
    exact hStands.last hKind
  have hLine : t.endLine = (xs ++ t.chars).count '\n' + 1 := by
    rw [Lexeme.endLine, hStands.line, List.count_append]
    omega
  have hFits := fits_place h hReturn hText hEnd
  rw [← hLine] at hFits
  refine ⟨⟨hFits.line_pos, hFits.line_le, ?_⟩, fun hInline => ?_⟩
  · rw [Token.endColumn, hStands.column]
    omega
  · rw [lastPart_append hInline, List.length_append, Nat.add_right_comm, ← hStands.column] at hFits
    exact hFits

end Places

/-! ## Places in comments -/

namespace Layout

variable {u : SourceUnit} {path text : String} {line column : Nat} {part : List Char}
  {parts : List (List Char)} {v : Violation}

theorem mem_inComment_cons (hv : v ∈ inComment line column (part :: parts)) :
    (∃ kept more, part = kept ++ more ∧ more ≠ [] ∧ v = trailing line (column + kept.length)) ∨
      v ∈ inComment (line + 1) 1 parts := by
  have hKept : ((dropReturn part).reverse.dropWhile isIndent).reverse <+: dropReturn part := by
    rw [← List.reverse_suffix, List.reverse_reverse]
    exact List.dropWhile_suffix _
  obtain ⟨spaces, hSpaces⟩ := hKept
  obtain ⟨terminator, hPart⟩ := dropReturn_isPrefix part
  rw [inComment] at hv
  split at hv
  · exact .inr hv
  · rename_i hDiffer
    refine (List.mem_cons.mp hv).imp_left fun hHere => ?_
    refine ⟨_, spaces ++ terminator, ?_, fun hNone => hDiffer ?_, hHere⟩
    · rw [← List.append_assoc, hSpaces, hPart]
    · rw [(List.append_eq_nil_iff.mp hNone).1, List.append_nil] at hSpaces
      exact congrArg List.length hSpaces

theorem mem_trailingSpaces {skipBlank ignoreComments : Bool} {before : Option Token}
    {ts : List Token} (hv : v ∈ trailingSpaces skipBlank ignoreComments before ts) :
    ∃ t ∈ ts, v = trailing t.line t.column ∨ v ∈ inComment t.line t.column (split t.chars) := by
  induction ts generalizing before with
  | nil => cases hv
  | cons t ts ih =>
    rw [trailingSpaces, List.mem_append] at hv
    rcases hv with hFound | hLater
    · refine ⟨t, List.mem_cons_self, ?_⟩
      split at hFound
      · rw [ofSpace] at hFound
        split at hFound
        · exact .inl (List.mem_singleton.mp hFound)
        · cases hFound
      · split at hFound
        · exact .inr hFound
        · cases hFound
    · obtain ⟨s, hs, hOwn⟩ := ih hLater
      exact ⟨s, List.mem_cons_of_mem t hs, hOwn⟩

variable (h : SourceUnit.parse path text = .ok u) (hReturn : '\r' ∉ text.toList)
include h hReturn

/-- The spaces at the end of a part of a comment start on the line of the part. -/
theorem fits_inPart {xs ys kept more : List Char} (hText : text.toList = xs ++ (part ++ ys))
    (hPart : part = kept ++ more) (hMore : more ≠ []) (hInline : '\n' ∉ part) :
    Fits u (xs.count '\n' + 1) ((lastPart xs).length + 1 + kept.length) := by
  have hKept : '\n' ∉ kept := fun hMem => hInline (hPart ▸ List.mem_append_left more hMem)
  have hPlace : text.toList = (xs ++ kept) ++ (more ++ ys) := by
    rw [hText, hPart]
    simp only [List.append_assoc]
  have hFits := fits_place h hReturn hPlace fun hNil =>
    absurd (List.append_eq_nil_iff.mp hNil).1 hMore
  rw [List.count_append, List.count_eq_zero.mpr hKept, lastPart_append hKept, List.length_append,
    Nat.add_right_comm (lastPart xs).length] at hFits
  exact hFits

theorem fits_inComment {xs cs ys : List Char} (hText : text.toList = xs ++ (cs ++ ys))
    (hv : v ∈ inComment (xs.count '\n' + 1) ((lastPart xs).length + 1) (split cs)) :
    Fits u v.line v.column := by
  by_cases hFeed : '\n' ∈ cs
  · obtain ⟨part, rest, hSplit, hInline⟩ := List.eq_append_cons_of_mem hFeed
    have hShorter : rest.length < cs.length := by
      rw [hSplit, List.length_append, List.length_cons]
      omega
    rw [hSplit, split_append_feed hInline] at hv
    rw [hSplit, List.append_assoc] at hText
    rcases mem_inComment_cons hv with ⟨kept, more, hPart, hMore, rfl⟩ | hLater
    · exact fits_inPart h hReturn hText hPart hMore hInline
    · have hOnwards : text.toList = (xs ++ part ++ ['\n']) ++ (rest ++ ys) := by
        rw [hText]
        simp only [List.append_assoc, List.cons_append, List.nil_append]
      refine fits_inComment hOnwards ?_
      rw [lastPart_concat_feed, List.count_append, List.count_append, List.count_eq_zero.mpr hInline]
      exact hLater
  · rw [split_eq_self hFeed] at hv
    rcases mem_inComment_cons hv with ⟨kept, more, hPart, hMore, rfl⟩ | hLater
    · exact fits_inPart h hReturn hText hPart hMore hFeed
    · cases hLater
termination_by cs.length

theorem fits_noTrailingSpaces {options : Options} (hv : v ∈ noTrailingSpaces.check u options) :
    Fits u v.line v.column := by
  obtain ⟨t, ht, rfl | hComment⟩ := mem_trailingSpaces (List.mem_mergeSort.mp hv)
  · exact fits_start h hReturn ht
  · obtain ⟨xs, ys, hStands⟩ := exists_stands h hReturn ht
    rw [hStands.line, hStands.column] at hComment
    exact fits_inComment h hReturn hStands.text hComment

theorem fits_linebreakStyle {options : Options} (hv : v ∈ linebreakStyle.check u options) :
    Fits u v.line v.column := by
  obtain ⟨t, ht, rfl⟩ := List.mem_map.mp hv
  exact fits_start h hReturn (List.mem_of_mem_filter ht)

omit hReturn in
theorem fits_eolLast {options : Options} (hv : v ∈ eolLast.check u options) :
    Fits u v.line v.column := by
  simp only [eolLast] at hv
  split at hv
  · cases hv
  · split at hv
    · rename_i last message hLast hFault
      cases List.mem_singleton.mp hv
      exact fits_line h (List.mem_of_getLast? hLast) (Nat.le_add_left 1 _) le_rfl
    · cases hv

end Layout

namespace Indent

theorem mem_exactLines {u : SourceUnit} {c : Code} {s : Step} {ls : List Line} {v : Violation}
    (hv : v ∈ (exactLines u c s ls).value) : ∃ l ∈ ls, v.line = l.number ∧ v.column = 1 := by
  induction ls with
  | nil => cases hv
  | cons l ls ih =>
    rw [exactLines] at hv
    simp only [Traced.value_bind, Traced.value_pure, List.mem_append] at hv
    rcases hv with hHere | hLater
    · refine ⟨l, List.mem_cons_self, ?_⟩
      simp only [exactLine] at hHere
      split at hHere
      · cases hHere
      split at hHere
      · cases hHere
      split at hHere
      · cases hHere
      simp only [Traced.value_bind, Traced.value_pure, judge] at hHere
      split at hHere
      · cases hHere
      cases List.mem_singleton.mp hHere
      exact ⟨rfl, rfl⟩
    · obtain ⟨k, hk, hPlace⟩ := ih hLater
      exact ⟨k, List.mem_cons_of_mem l hk, hPlace⟩

theorem fits_rule {u : SourceUnit} {path text : String} {options : Options} {v : Violation}
    (h : SourceUnit.parse path text = .ok u) (hv : v ∈ rule.check u options) :
    Fits u v.line v.column := by
  obtain ⟨l, hl, hLine, hColumn⟩ := mem_exactLines (mem_exactCheck hv)
  rw [hLine, hColumn]
  exact fits_line h hl le_rfl (Nat.le_add_left 1 _)

end Indent

/-! ## Sites -/

/-- What is reported behind a token. -/
def StopsWith (r : Rule) (message : String) : Prop :=
  (r = Semi.rule ∧ message = "Missing semicolon.") ∨
    (r = CommaDangle.rule ∧ message = "Missing trailing comma.")

/-- A place behind a token of several lines, in the column that it would have if the token stood
on one line. -/
structure Overruns (r : Rule) (u : SourceUnit) (v : Violation) : Prop
    extends OnLine u v.line v.column where
  stops : StopsWith r v.message
  behind : ∃ t ∈ u.significantTokens, '\n' ∈ t.chars ∧ v = .atEnd t v.message

section Sites

variable {u : SourceUnit} {path text : String} {r : Rule} {sites : List Site} {v : Violation}

theorem exists_site (hv : v ∈ sites.filterMap (Site.locate? u.significantTokens)) :
    ∃ s ∈ sites, ∃ t ∈ u.significantTokens, t ∈ u.tokens.toList ∧ t.kind ≠ .newline ∧
      v = if s.behind then .atEnd t s.message else .atStart t s.message := by
  obtain ⟨s, hs, hLocate⟩ := List.mem_filterMap.mp hv
  obtain ⟨t, hAt, hPlace⟩ := Option.map_eq_some_iff.mp hLocate
  have hSignificant := List.mem_of_getElem? hAt
  obtain ⟨ht, hKind⟩ := List.mem_filter.mp hSignificant
  refine ⟨s, hs, t, hSignificant, ht, fun hNewline => ?_, hPlace.symm⟩
  rw [Lexeme.isSignificant, hNewline] at hKind
  cases hKind

variable (h : SourceUnit.parse path text = .ok u) (hReturn : '\r' ∉ text.toList)
include h hReturn

theorem fits_of_starts (hStarts : ∀ s ∈ sites, s.behind = false)
    (hv : v ∈ sites.filterMap (Site.locate? u.significantTokens)) : Fits u v.line v.column := by
  obtain ⟨s, hs, t, -, ht, -, rfl⟩ := exists_site hv
  rw [hStarts s hs, if_neg Bool.false_ne_true]
  exact fits_start h hReturn ht

theorem fits_or_overruns (hStops : ∀ s ∈ sites, s.behind = true → StopsWith r s.message)
    (hv : v ∈ sites.filterMap (Site.locate? u.significantTokens)) :
    Fits u v.line v.column ∨ Overruns r u v := by
  obtain ⟨s, hs, t, hSignificant, ht, hKind, rfl⟩ := exists_site hv
  obtain ⟨hOnLine, hFits⟩ := onLine_stop h hReturn ht hKind
  split
  · rename_i hBehind
    by_cases hFeed : '\n' ∈ t.chars
    · exact .inr ⟨hOnLine, hStops s hs hBehind, t, hSignificant, hFeed, rfl⟩
    · exact .inl (hFits hFeed)
  · exact .inl (fits_start h hReturn ht)

end Sites

theorem Semi.stops {c : Code} {options : Options} :
    ∀ s ∈ Semi.sites c options, s.behind = true → StopsWith Semi.rule s.message := by
  intro s hs hBehind
  rw [Semi.sites] at hs
  split at hs
  · obtain ⟨p, -, rfl⟩ := List.mem_map.mp hs
    cases hBehind
  · obtain ⟨p, -, rfl⟩ := List.mem_map.mp hs
    exact .inl ⟨rfl, rfl⟩

theorem CommaDangle.stops {c : Code} {options : Options} :
    ∀ s ∈ CommaDangle.sites c options, s.behind = true → StopsWith CommaDangle.rule s.message := by
  intro s hs hBehind
  obtain ⟨p, -, hSite⟩ := List.mem_filterMap.mp hs
  rw [CommaDangle.site?] at hSite
  split at hSite
  · dsimp only at hSite
    split at hSite
    · cases hSite
      cases hBehind
    · cases hSite
      exact .inr ⟨rfl, rfl⟩
    · cases hSite
  · cases hSite

theorem Equality.starts {c : Code} {options : Options} :
    ∀ s ∈ Equality.sites c options, s.behind = false := by
  intro s hs
  obtain ⟨p, -, hSite⟩ := List.mem_filterMap.mp hs
  obtain ⟨l, -, hSite⟩ := Option.bind_eq_some_iff.mp hSite
  split at hSite
  · cases hSite
    rfl
  · cases hSite

theorem UnusedNames.starts {c : Code} {options : Options} :
    ∀ s ∈ UnusedNames.sites c options, s.behind = false := by
  intro s hs
  obtain ⟨b, -, hSite⟩ := List.mem_filterMap.mp hs
  obtain ⟨l, -, hSite⟩ := Option.bind_eq_some_iff.mp hSite
  grind [Site.start]

theorem Empty.starts {c : Code} {allowEmptyCatch : Bool} {ps : List Nat} :
    ∀ s ∈ ps.filterMap (Empty.site? c allowEmptyCatch), s.behind = false := by
  intro s hs
  obtain ⟨p, -, hSite⟩ := List.mem_filterMap.mp hs
  rw [Empty.site?] at hSite
  grind [Site.start]

/-- Rules that report positions of the code themselves. -/
theorem starts_of_map {ps : List Nat} {message : String} :
    ∀ s ∈ ps.map (Site.start · message), s.behind = false := by
  intro s hs
  obtain ⟨p, -, rfl⟩ := List.mem_map.mp hs
  rfl

/-! ## All rules -/

/-- In a text with line feeds only, findings stand on lines of the file and in them or directly
behind them. The exceptions stand behind tokens of several lines. -/
theorem findings_in_file (path text : String) (u : SourceUnit)
    (h : SourceUnit.parse path text = .ok u) (hReturn : '\r' ∉ text.toList) :
    ∀ r ∈ Catalog.builtin.rules, ∀ options, ∀ v ∈ r.check u options,
      Fits u v.line v.column ∨ Overruns r u v := by
  intro r hr options v hv
  rw [Catalog.rules_builtin] at hr
  simp only [List.mem_cons, List.not_mem_nil, or_false] at hr
  rcases hr with rfl | rfl | rfl | rfl | rfl | rfl | rfl | rfl | rfl | rfl | rfl | rfl | rfl
  · exact fits_or_overruns h hReturn Semi.stops hv
  · exact .inl (fits_of_starts h hReturn starts_of_map hv)
  · exact .inl (Indent.fits_rule h hv)
  · exact .inl (fits_of_starts h hReturn UnusedNames.starts hv)
  · exact .inl (fits_of_starts h hReturn Equality.starts hv)
  · exact .inl (Layout.fits_noTrailingSpaces h hReturn hv)
  · exact .inl (Layout.fits_eolLast h hv)
  · exact fits_or_overruns h hReturn CommaDangle.stops hv
  · exact .inl (fits_of_starts h hReturn starts_of_map hv)
  · exact .inl (fits_of_starts h hReturn starts_of_map hv)
  · exact .inl (fits_of_starts h hReturn starts_of_map hv)
  · exact .inl (Layout.fits_linebreakStyle h hReturn hv)
  · exact .inl (fits_of_starts h hReturn Empty.starts hv)

theorem findings_in_file_spaces :
    ∃ u, SourceUnit.parse "a.js" "b(1)\n/* 2 \n3 */" = .ok u ∧
      ⟨"Missing semicolon.", 1, 5⟩ ∈ Semi.rule.check u .empty ∧
      ⟨"Trailing spaces not allowed.", 2, 5⟩ ∈ Layout.noTrailingSpaces.check u .empty ∧
      ⟨"Newline required at end of file but not found.", 3, 5⟩ ∈ Layout.eolLast.check u .empty ∧
      ∀ r ∈ [Semi.rule, Layout.noTrailingSpaces, Layout.eolLast], ∀ v ∈ r.check u .empty,
        Fits u v.line v.column ∨ Overruns r u v := by
  obtain ⟨u, hu, hSemi, hSpaces, hEnd⟩ : ∃ u,
      SourceUnit.parse "a.js" "b(1)\n/* 2 \n3 */" = .ok u ∧
      ⟨"Missing semicolon.", 1, 5⟩ ∈ Semi.rule.check u .empty ∧
      ⟨"Trailing spaces not allowed.", 2, 5⟩ ∈
        Layout.trailingSpaces false false none u.tokens.toList ∧
      ⟨"Newline required at end of file but not found.", 3, 5⟩ ∈ Layout.eolLast.check u .empty :=
    exists_ok (by decide +kernel)
  refine ⟨u, hu, hSemi, List.mem_mergeSort.mpr hSpaces, hEnd, fun r hr => ?_⟩
  have hRegistered : r ∈ Catalog.builtin.rules := by
    rw [Catalog.rules_builtin]
    simp only [List.mem_cons, List.not_mem_nil, or_false] at hr ⊢
    tauto
  exact findings_in_file "a.js" _ u hu (by decide) r hRegistered .empty

/-- Behind a template of two lines the column is outside the line. -/
theorem findings_in_file_exceptions :
    (∃ u, SourceUnit.parse "a.js" "let a = \x60x\ny\x60\n" = .ok u ∧
      ⟨"Missing semicolon.", 2, 14⟩ ∈ Semi.rule.check u .empty ∧ ¬Fits u 2 14) ∧
    (∃ u, SourceUnit.parse "a.js" "x = [\n\x60x\nyzw\x60\n];\n" = .ok u ∧
      ⟨"Missing trailing comma.", 3, 8⟩ ∈ CommaDangle.rule.check u ⟨[.string "always"]⟩ ∧
      ¬Fits u 3 8) := by
  constructor
  · obtain ⟨u, hu, hMissing, hLength⟩ : ∃ u,
        SourceUnit.parse "a.js" "let a = \x60x\ny\x60\n" = .ok u ∧
        ⟨"Missing semicolon.", 2, 14⟩ ∈ Semi.rule.check u .empty ∧
        u.lines[1]?.map (·.chars.length) = some 2 :=
      exists_ok (by decide +kernel)
    obtain ⟨l, hAt, hLine⟩ := Option.map_eq_some_iff.mp hLength
    exact ⟨u, hu, hMissing, fun hFits => absurd (hFits.column_le l hAt) (by omega)⟩
  · obtain ⟨u, hu, hMissing, hLength⟩ : ∃ u,
        SourceUnit.parse "a.js" "x = [\n\x60x\nyzw\x60\n];\n" = .ok u ∧
        ⟨"Missing trailing comma.", 3, 8⟩ ∈ CommaDangle.rule.check u ⟨[.string "always"]⟩ ∧
        u.lines[2]?.map (·.chars.length) = some 4 :=
      exists_ok (by decide +kernel)
    obtain ⟨l, hAt, hLine⟩ := Option.map_eq_some_iff.mp hLength
    exact ⟨u, hu, hMissing, fun hFits => absurd (hFits.column_le l hAt) (by omega)⟩

end RuleScout
