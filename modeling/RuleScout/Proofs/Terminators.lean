import RuleScout.Proofs.Brackets
import RuleScout.Proofs.TwinTokens

/-!
# The other line terminator

A text is read alike whether its lines end with a line feed alone or with a carriage return and a
line feed: the tokens are of the same kinds and stand at the same lines and columns, the brackets
fit or do not fit, and the lines are the same. There are two exceptions. A backslash in a string or
a regular expression escapes a single character, so it cannot escape a terminator of two, and the
mark of an interpreter extends to the line feed and so takes the return into its token.
-/

set_option autoImplicit false

namespace RuleScout

open Text

variable {t t' : Token} {ts ts' : List Token} {cs : List Char}

/-! ## Brackets -/

namespace Token.Twin

theorem mark? (h : t.Twin t') : t'.toLexeme.mark? = t.toLexeme.mark? := by
  apply Option.ext
  intro m
  rw [Lexeme.mark?_eq_some_iff, Lexeme.mark?_eq_some_iff, h.kind]
  refine and_congr_right fun hKind => ?_
  rw [h.text (by rw [hKind]; rfl)]

theorem after (h : t.Twin t') :
    BraceKind.after (some t'.toLexeme) = BraceKind.after (some t.toLexeme) := by
  simp only [BraceKind.after, h.kind]
  split
  · rename_i hKind
    rw [h.text (by rw [hKind]; rfl)]
  · rename_i hKind
    rw [h.text (by rw [hKind]; rfl)]
  · rfl

end Token.Twin

theorem nest_twins (h : List.Forall₂ Token.Twin ts ts') (i : Nat) (stack : List OpenBracket)
    {previous previous' : Option Lexeme}
    (hPrevious : BraceKind.after previous' = BraceKind.after previous) :
    nest i stack previous' (ts'.map Token.toLexeme) =
      nest i stack previous (ts.map Token.toLexeme) := by
  induction h generalizing i stack previous previous' with
  | nil => rfl
  | @cons t t' ts ts' hToken hRest ih =>
    have hNext : BraceKind.after (if t'.isSignificant then some t'.toLexeme else previous') =
        BraceKind.after (if t.isSignificant then some t.toLexeme else previous) := by
      rw [Lexeme.isSignificant, Lexeme.isSignificant, hToken.kind]
      split
      · exact hToken.after
      · exact hPrevious
    simp only [List.map_cons, nest_cons, hToken.mark?, hPrevious, ih _ _ hNext]

/-! ## Lines -/

namespace Line

theorem dropReturn_cons {c : Char} (hc : c ≠ '\r') (l : List Char) :
    dropReturn (c :: l) = c :: dropReturn l := by
  cases l with
  | nil => simp [dropReturn, hc]
  | cons d l =>
    rw [dropReturn, dropReturn, List.getLast?_cons_cons]
    split
    · rfl
    · rfl

/-- The character in front of the first part. -/
def prepend (c : Char) : List (List Char) → List (List Char)
  | [] => [[c]]
  | l :: ls => (c :: l) :: ls

theorem split_cons {c : Char} (hc : c ≠ '\n') (cs : List Char) :
    split (c :: cs) = prepend c (split cs) := by
  rw [split, if_neg hc]
  rfl

theorem map_dropReturn_prepend {c : Char} (hc : c ≠ '\r') (parts : List (List Char)) :
    (prepend c parts).map dropReturn = prepend c (parts.map dropReturn) := by
  cases parts with
  | nil => exact congrArg ([·]) (dropReturn_cons hc [])
  | cons l ls => exact congrArg (· :: ls.map dropReturn) (dropReturn_cons hc l)

theorem map_dropReturn_split (hReturn : '\r' ∉ cs) : (split cs).map dropReturn = split cs := by
  induction cs with
  | nil => rfl
  | cons c cs ih =>
    rw [List.mem_cons, not_or] at hReturn
    by_cases hc : c = '\n'
    · subst hc
      exact congrArg ([] :: ·) (ih hReturn.2)
    · rw [split_cons hc, map_dropReturn_prepend (Ne.symm hReturn.1), ih hReturn.2]

theorem map_dropReturn_split_withReturns (hReturn : '\r' ∉ cs) :
    (split (withReturns cs)).map dropReturn = split cs := by
  induction cs with
  | nil => rfl
  | cons c cs ih =>
    rw [List.mem_cons, not_or] at hReturn
    by_cases hc : c = '\n'
    · subst hc
      exact congrArg ([] :: ·) (ih hReturn.2)
    · rw [withReturns_cons hc, split_cons hc, split_cons hc,
        map_dropReturn_prepend (Ne.symm hReturn.1), ih hReturn.2]

theorem texts_withReturns (hReturn : '\r' ∉ cs) : texts (withReturns cs) = texts cs := by
  simp only [texts, getLast?_withReturns]
  split
  · rw [List.map_dropLast, List.map_dropLast, map_dropReturn_split_withReturns hReturn,
      map_dropReturn_split hReturn]
  · rw [map_dropReturn_split_withReturns hReturn, map_dropReturn_split hReturn]

/-- What the layout of lines sees of a token: its kind, the lines it starts and ends on, and its
index. -/
structure Outline where
  kind : TokenKind
  line : Nat
  endLine : Nat
  index : Nat

def outline (p : Token × Nat) : Outline := ⟨p.1.kind, p.1.line, p.1.endLine, p.2⟩

section Outlines

variable {ps ps' : List (Token × Nat)} (h : ps.map outline = ps'.map outline)
include h

theorem takeWhile_outlines (k : Nat) :
    (ps.takeWhile fun (t, _) => t.line ≤ k).map outline =
      (ps'.takeWhile fun (t, _) => t.line ≤ k).map outline := by
  have hUp (qs : List (Token × Nat)) : (qs.takeWhile fun (t, _) => t.line ≤ k).map outline =
      (qs.map outline).takeWhile fun o => o.line ≤ k := by
    rw [List.takeWhile_map]
    rfl
  rw [hUp, hUp, h]

theorem find?_outlines :
    (ps.find? fun (t, _) => t.kind ≠ .whitespace).map outline =
      (ps'.find? fun (t, _) => t.kind ≠ .whitespace).map outline := by
  have hUp (qs : List (Token × Nat)) : (qs.find? fun (t, _) => t.kind ≠ .whitespace).map outline =
      (qs.map outline).find? fun o => o.kind ≠ .whitespace := by
    rw [List.find?_map]
    rfl
  rw [hUp, hUp, h]

theorem foldl_reach_outlines (covered : Nat) :
    ps.foldl (fun m (t, _) => reach m t) covered =
      ps'.foldl (fun m (t, _) => reach m t) covered := by
  have hUp (qs : List (Token × Nat)) : qs.foldl (fun m (t, _) => reach m t) covered =
      (qs.map outline).foldl
        (fun m o => if o.kind = .newline then m else max m o.endLine) covered := by
    rw [List.foldl_map]
    rfl
  rw [hUp, hUp, h]

omit h in
theorem first_outlines {first first' : Option (Token × Nat)}
    (h : first.map outline = first'.map outline) (enclosing : Nat → List Nat) :
    (first.filter fun (t, _) => t.kind ≠ .newline).map (·.2) =
        (first'.filter fun (t, _) => t.kind ≠ .newline).map (·.2) ∧
      (first.map fun (_, i) => (enclosing i).reverse) =
        first'.map fun (_, i) => (enclosing i).reverse := by
  cases first with
  | none =>
    rw [Option.map_eq_none_iff.mp h.symm]
    exact ⟨rfl, rfl⟩
  | some p =>
    obtain ⟨p', rfl, hSame⟩ := Option.map_eq_some_iff.mp h.symm
    have hKind : p'.1.kind = p.1.kind := congrArg Outline.kind hSame
    have hIndex : p'.2 = p.2 := congrArg Outline.index hSame
    simp only [Option.filter, Option.map_some, hKind, hIndex, and_true]
    split
    · exact congrArg some hIndex.symm
    · rfl

theorem layOut_outlines (enclosing : Nat → List Nat) (k covered : Nat) (texts : List (List Char)) :
    layOut enclosing k covered ps texts = layOut enclosing k covered ps' texts := by
  induction texts generalizing k covered ps ps' with
  | nil => rfl
  | cons text texts ih =>
    -- equally many tokens start on this line, and the others are left for the next ones
    have hHere := takeWhile_outlines h k
    have hLength := congrArg List.length hHere
    rw [List.length_map, List.length_map] at hLength
    obtain ⟨hToken, hBrackets⟩ := first_outlines (find?_outlines hHere) enclosing
    have hLater : (ps.drop (ps.takeWhile fun (t, _) => t.line ≤ k).length).map outline =
        (ps'.drop (ps'.takeWhile fun (t, _) => t.line ≤ k).length).map outline := by
      rw [List.map_drop, List.map_drop, h, hLength]
    simp only [layOut, foldl_reach_outlines hHere, ih hLater]
    split
    · rfl
    · rw [hToken, hBrackets]

end Outlines

theorem outlines_twins (h : List.Forall₂ Token.Twin ts ts') (i : Nat) :
    (ts.zipIdx i).map outline = (ts'.zipIdx i).map outline := by
  induction h generalizing i with
  | nil => rfl
  | @cons t t' ts ts' hToken hRest ih =>
    have hEnd : t'.endLine = t.endLine := by
      rw [Lexeme.endLine, Lexeme.endLine, hToken.line, hToken.chars, count_withReturns]
    rw [List.zipIdx_cons, List.zipIdx_cons, List.map_cons, List.map_cons, ih, outline, outline,
      hToken.kind, hToken.line, hEnd]

end Line

/-! ## Source units -/

theorem Token.Twin.refl (h : '\n' ∉ t.chars) : t.Twin t :=
  ⟨rfl, rfl, rfl, (withReturns_eq_self h).symm, fun _ => h⟩

theorem feed_not_mem_token {text : String} (hFeed : '\n' ∉ text.toList) (h : lex text = .ok ts) :
    ∀ t ∈ ts, '\n' ∉ t.chars := by
  intro t ht hToken
  rw [← (cuts_of_lex h).flatMap_chars] at hFeed
  exact hFeed (List.mem_flatMap_of_mem ht hToken)

section Texts

variable {text : String} (hReturn : '\r' ∉ text.toList)
  (hMark : '\n' ∈ text.toList → ¬['#', '!'] <+: text.toList)
include hReturn hMark

theorem lex_withReturns (h : lex text = .ok ts) (hUnbroken : ∀ t ∈ ts, t.Unbroken) :
    ∃ ts', lex (String.ofList (withReturns text.toList)) = .ok ts' ∧
      List.Forall₂ Token.Twin ts ts' := by
  by_cases hFeed : '\n' ∈ text.toList
  · obtain ⟨ts', hCuts, hTwins⟩ :=
      (cuts_of_lex h).withReturns (.refl {}) hReturn (fun _ => hMark hFeed) hUnbroken
    refine ⟨ts', ?_, hTwins⟩
    rw [lex, String.toList_ofList]
    exact Cursor.tokens_of_cuts hCuts
  · rw [withReturns_eq_self hFeed, String.ofList_toList]
    have hTokens := feed_not_mem_token hFeed h
    exact ⟨ts, h, List.forall₂_same.mpr fun t ht => .refl (hTokens t ht)⟩

theorem lex_of_withReturns (h : lex (String.ofList (withReturns text.toList)) = .ok ts') :
    ∃ ts, lex text = .ok ts ∧ List.Forall₂ Token.Twin ts ts' ∧ ∀ t ∈ ts, t.Unbroken := by
  by_cases hFeed : '\n' ∈ text.toList
  · have hCuts := cuts_of_lex h
    rw [String.toList_ofList] at hCuts
    obtain ⟨ts, hCuts, hTwins, hUnbroken⟩ :=
      hCuts.of_withReturns rfl (.refl {}) hReturn fun _ => hMark hFeed
    exact ⟨ts, Cursor.tokens_of_cuts hCuts, hTwins, hUnbroken⟩
  · rw [withReturns_eq_self hFeed, String.ofList_toList] at h
    have hTokens := feed_not_mem_token hFeed h
    exact ⟨ts', h, List.forall₂_same.mpr fun t ht => .refl (hTokens t ht),
      fun t ht _ => hTokens t ht⟩

end Texts

namespace SourceUnit

/-- The source unit of a text that is cut into tokens and whose brackets are nested. -/
def ofNesting (path text : String) (ts : List Token) (n : Nesting) : SourceUnit where
  path := path
  text := text
  tokens := ts.toArray
  brackets := .ofNesting n
  lines := Line.layOut (Structure.ofNesting n).ancestors 1 0 ts.zipIdx (Line.texts text.toList)

theorem parse_eq_ok_iff {path text : String} {u : SourceUnit} :
    parse path text = .ok u ↔ ∃ ts n, lex text = .ok ts ∧
      nest 0 [] none (ts.map Token.toLexeme) = .ok n ∧ ofNesting path text ts n = u := by
  rw [parse]
  cases lex text with
  | error e => simp
  | ok ts =>
    simp only [Except.ok.injEq, ↓existsAndEq, true_and]
    cases nest 0 [] none (ts.map Token.toLexeme) with
    | error e => simp
    | ok n => simp [ofNesting]

theorem lex_tokens {path text : String} {u : SourceUnit} (h : parse path text = .ok u) :
    lex text = .ok u.tokens.toList := by
  obtain ⟨ts, n, hLex, -, rfl⟩ := parse_eq_ok_iff.mp h
  exact hLex

end SourceUnit

/-- With returns before its line feeds a text is accepted like before and read like before, unless
a string or a regular expression reaches over the end of a line. A text of several lines that
starts with the mark of an interpreter is left out. -/
theorem parse_withReturns (path text : String) (hReturn : '\r' ∉ text.toList)
    (hMark : '\n' ∈ text.toList → ¬['#', '!'] <+: text.toList) :
    let text' := String.ofList (withReturns text.toList)
    ((∃ u', SourceUnit.parse path text' = .ok u') ↔
      ∃ u, SourceUnit.parse path text = .ok u ∧ ∀ t ∈ u.tokens, t.Unbroken) ∧
    ∀ u u', SourceUnit.parse path text = .ok u → SourceUnit.parse path text' = .ok u' →
      List.Forall₂ Token.Twin u.tokens.toList u'.tokens.toList ∧ u'.brackets = u.brackets ∧
        u'.lines = u.lines := by
  intro text'
  refine ⟨⟨?_, ?_⟩, ?_⟩
  · rintro ⟨u', hu'⟩
    obtain ⟨ts', n, hLex', hNest', rfl⟩ := SourceUnit.parse_eq_ok_iff.mp hu'
    obtain ⟨ts, hLex, hTwins, hUnbroken⟩ := lex_of_withReturns hReturn hMark hLex'
    rw [nest_twins hTwins 0 [] rfl] at hNest'
    exact ⟨_, SourceUnit.parse_eq_ok_iff.mpr ⟨ts, n, hLex, hNest', rfl⟩, by
      simpa [SourceUnit.ofNesting] using hUnbroken⟩
  · rintro ⟨u, hu, hUnbroken⟩
    obtain ⟨ts, n, hLex, hNest, rfl⟩ := SourceUnit.parse_eq_ok_iff.mp hu
    obtain ⟨ts', hLex', hTwins⟩ := lex_withReturns hReturn hMark hLex
      (by simpa [SourceUnit.ofNesting] using hUnbroken)
    rw [← nest_twins hTwins 0 [] rfl] at hNest
    exact ⟨_, SourceUnit.parse_eq_ok_iff.mpr ⟨ts', n, hLex', hNest, rfl⟩⟩
  · intro u u' hu hu'
    obtain ⟨ts, n, hLex, hNest, rfl⟩ := SourceUnit.parse_eq_ok_iff.mp hu
    obtain ⟨ts', n', hLex', hNest', rfl⟩ := SourceUnit.parse_eq_ok_iff.mp hu'
    obtain ⟨_, hLex'', hTwins, -⟩ := lex_of_withReturns hReturn hMark hLex'
    cases hLex.symm.trans hLex''
    rw [nest_twins hTwins 0 [] rfl] at hNest'
    cases hNest.symm.trans hNest'
    refine ⟨hTwins, rfl, ?_⟩
    simp only [SourceUnit.ofNesting]
    rw [String.toList_ofList, Line.texts_withReturns hReturn,
      Line.layOut_outlines (Line.outlines_twins hTwins 0)]

theorem parse_withReturns_template :
    let text := "x('\\'', \x60a\n$\x7by\x7d\x60)\n"
    let text' := String.ofList (withReturns text.toList)
    '\r' ∉ text.toList ∧ ¬['#', '!'] <+: text.toList ∧
      ∃ u u', SourceUnit.parse "a.js" text = .ok u ∧ SourceUnit.parse "a.js" text' = .ok u' ∧
        List.Forall₂ Token.Twin u.tokens.toList u'.tokens.toList ∧ u'.lines = u.lines := by
  intro text text'
  have hReturn : '\r' ∉ text.toList := by decide
  have hMark : ¬['#', '!'] <+: text.toList := by decide
  obtain ⟨hAccepted, hSame⟩ := parse_withReturns "a.js" text hReturn fun _ => hMark
  have hParse : ((SourceUnit.parse "a.js" text).toOption.any
      fun u => u.tokens.all fun t => decide t.Unbroken) = true := by decide +kernel
  obtain ⟨u, hu, hUnbroken⟩ := (Option.any_eq_true _ _).mp hParse
  rw [toOption_eq_some_iff] at hu
  rw [Array.all_eq_true_iff_forall_mem] at hUnbroken
  obtain ⟨u', hu'⟩ := hAccepted.mpr ⟨u, hu, fun t ht => of_decide_eq_true (hUnbroken t ht)⟩
  obtain ⟨hTokens, -, hLines⟩ := hSame u u' hu hu'
  exact ⟨hReturn, hMark, u, u', hu, hu', hTokens, hLines⟩

/-- The exceptions: an escaped end of a line leaves the string open, and the line behind the mark
of an interpreter is counted twice. -/
theorem parse_withReturns_exceptions :
    let withReturns (text : String) := String.ofList (withReturns text.toList)
    let lines (text : String) :=
      (SourceUnit.parse "a.js" text).toOption.map fun u => u.tokens.toList.map (·.line)
    lines "'a\\\nb'" = some [1] ∧
      SourceUnit.parse "a.js" (withReturns "'a\\\nb'") =
        .error ⟨.lexical .unterminatedString, 1, 1⟩ ∧
      lines "#!node\nb" = some [1, 1, 2] ∧ lines (withReturns "#!node\nb") = some [1, 2, 3] := by
  decide +kernel

end RuleScout
