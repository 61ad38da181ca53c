import RuleScout.Discovery.Trial
import RuleScout.Proofs.Reindentation
import RuleScout.Rule.Builtin

/-!
# How large widths become

A width is the indentation of a line and some steps. Inside a `switch` there are as many steps as
the options say and one more, and a line that goes on with an expression has yet another one. The
numbers on the way fit a word if these do, and nothing less is enough: there is a unit without any
indentation in which all of them are needed. The rule has an answer exactly where they fit.
-/

set_option autoImplicit false

namespace RuleScout

namespace Indent

variable {s : Step} {u : SourceUnit} {c : Code} {l : Line} {t : Token} {i : Nat}

/-- No number computed for a line of the unit is beyond a word. -/
def NumbersFit (s : Step) (u : SourceUnit) : Prop := (exactLines u u.code s u.lines).Fits

theorem Short.numbersFit (h : Short s u) : NumbersFit s u := h.exactLines fun _ => id

/-- The options that are listed, with their default. -/
structure Listed (s : Step) : Prop where
  size : s.size ≤ 4
  switchCase : s.switchCase ≤ 1

theorem size_le_of_listed {o : Options} {x : Value} (hx : x ∈ styles) (hGiven : o.get? 0 = some x) :
    (Step.ofOptions o).size ≤ 4 := by
  simp only [styles, List.mem_cons, List.not_mem_nil, or_false] at hx
  rcases hx with rfl | rfl | rfl <;> simp [Step.ofOptions, hGiven]

theorem Listed.short (h : Listed s)
    (hLines : ∀ l ∈ u.lines, l.indentation.length + 12 < Word.count) : Short s u := by
  refine ⟨Nat.lt_of_le_of_lt (Nat.succ_le_succ h.switchCase) (by decide), fun l hl => ?_⟩
  calc
    l.indentation.length + (s.switchCase + 2) * s.size ≤ l.indentation.length + 3 * 4 :=
      Nat.add_le_add_left (Nat.mul_le_mul (Nat.add_le_add_right h.switchCase 2) h.size) _
    _ < Word.count := hLines l hl

/-! ## How large the numbers do become -/

theorem mem_numbers_exactLines (before : List Line) {later : List Line} {n : Nat}
    (h : n ∈ (exactLine u c s l later).numbers) :
    n ∈ (exactLines u c s (before ++ l :: later)).numbers := by
  induction before with
  | nil => exact List.mem_append_left _ h
  | cons line before ih => exact List.mem_append_right _ (List.mem_append_left _ ih)

/-- The numbers of a line inside a `switch` that goes on with an expression, where the line of the
`switch` is not indented. -/
theorem numbers_deep {opener : Nat} {later : List Line} (hFirst : l.firstToken = some i)
    (ht : u.token? i = some t) (hChecked : (l.continued || l.isBlank) = false)
    (hOpener : l.openBrackets.getLast? = some opener) (hInside : isCloser t = false)
    (hSwitch : c.followsHeader (u.rank opener) ["switch"] = true)
    (hCase : (t.isKeyword "case" || t.isKeyword "default") = false)
    (hCode : t.kind.isComment = false) (hContinued : isContinuation c t (u.rank i) = true)
    (hWidth : lineWidth u opener = 0) :
    (exactLine u c s l later).numbers =
      [s.switchCase + 1, (s.switchCase + 1) * s.size, (s.switchCase + 1) * s.size,
        (s.switchCase + 2) * s.size] := by
  simp [exactLine, exactAccepted, exactWidths, exactBase, exactLevels, Traced.number, hFirst, ht,
    hChecked, hOpener, hInside, hSwitch, hCase, hCode, hContinued, hWidth,
    Nat.succ_mul (s.switchCase + 1)]

theorem exists_deep_unit (s : Step) :
    ∃ u, SourceUnit.parse "a.js" "switch (a) \x7b\nb\n.c;\n\x7d\n" = .ok u ∧
      (∀ l ∈ u.lines, l.indentation = []) ∧
      (NumbersFit s u →
        s.switchCase + 1 < Word.count ∧ (s.switchCase + 2) * s.size < Word.count) := by
  obtain ⟨u, hu, hPlain, hLines, hToken, hSwitch, hContinued, hWidth⟩ : ∃ u,
      SourceUnit.parse "a.js" "switch (a) \x7b\nb\n.c;\n\x7d\n" = .ok u ∧
      (∀ l ∈ u.lines, l.indentation = []) ∧
      u.lines = [⟨1, "switch (a) \x7b", some 0, false, []⟩, ⟨2, "b", some 8, false, [6]⟩] ++
        [⟨3, ".c;", some 10, false, [6]⟩, ⟨4, "\x7d", some 14, false, []⟩] ∧
      u.token? 10 = some ⟨⟨.punctuator, ".", 3⟩, 15, 1⟩ ∧
      u.code.followsHeader (u.rank 6) ["switch"] = true ∧
      isContinuation u.code ⟨⟨.punctuator, ".", 3⟩, 15, 1⟩ (u.rank 10) = true ∧
      lineWidth u 6 = 0 :=
    exists_ok (by decide +kernel)
  refine ⟨u, hu, hPlain, fun hFits => ?_⟩
  have hNumber : ∀ n ∈ [s.switchCase + 1, (s.switchCase + 1) * s.size, (s.switchCase + 1) * s.size,
      (s.switchCase + 2) * s.size], n < Word.count := by
    intro n hn
    rw [NumbersFit, hLines] at hFits
    refine hFits n (mem_numbers_exactLines [_, _] ?_)
    rwa [numbers_deep rfl hToken rfl rfl (by decide) hSwitch (by decide) rfl hContinued hWidth]
  exact ⟨hNumber _ (by simp), hNumber _ (by simp)⟩

/-- The rule has an answer exactly where the numbers fit, and it is the one with unbounded numbers
then. They fit in all files without indentation exactly if the deepest line there can be fits, and
in an indented file if there is room for the indentation besides; with the listed options twelve
characters of room are enough. -/
theorem indent_numbers_fit (o : Options) :
    (∀ u found, rule.run u o = .ok found ↔
      NumbersFit (.ofOptions o) u ∧ (exactCheck u o).value = found) ∧
    ((∀ path text u, SourceUnit.parse path text = .ok u → (∀ l ∈ u.lines, l.indentation = []) →
        NumbersFit (.ofOptions o) u) ↔
      (Step.ofOptions o).switchCase + 1 < Word.count ∧
        ((Step.ofOptions o).switchCase + 2) * (Step.ofOptions o).size < Word.count) ∧
    (∀ u, Short (.ofOptions o) u → NumbersFit (.ofOptions o) u) ∧
    ∀ u, (∃ x ∈ styles, o.get? 0 = some x) → (Step.ofOptions o).switchCase ≤ 1 →
      (∀ l ∈ u.lines, l.indentation.length + 12 < Word.count) → NumbersFit (.ofOptions o) u := by
  refine ⟨fun u found => ?_, ⟨fun hAll => ?_, fun ⟨hLevels, hDeepest⟩ path text u _ hPlain => ?_⟩,
    fun u hShort => hShort.numbersFit, ?_⟩
  · rw [run_rule, Traced.inWords_eq_ok_iff]
    rfl
  · obtain ⟨u, hu, hPlain, hNumbers⟩ := exists_deep_unit (.ofOptions o)
    exact hNumbers (hAll _ _ u hu hPlain)
  · refine Short.numbersFit ⟨hLevels, fun l hl => ?_⟩
    rw [hPlain l hl, List.length_nil, Nat.zero_add]
    exact hDeepest
  · rintro u ⟨x, hx, hGiven⟩ hCase hLines
    exact (Listed.short ⟨size_le_of_listed hx hGiven, hCase⟩ hLines).numbersFit

theorem indent_numbers_fit_listed :
    let o : Options := ⟨[.int 4, .object [("SwitchCase", .int 1)]]⟩
    ∃ u, SourceUnit.parse "a.js" "switch (a) \x7b\n    case 1:\n\tb\n  .c;\n\x7d\n" = .ok u ∧
      (∃ x ∈ styles, o.get? 0 = some x) ∧ (Step.ofOptions o).switchCase ≤ 1 ∧
      (∀ l ∈ u.lines, l.indentation.length + 12 < Word.count) ∧ NumbersFit (.ofOptions o) u := by
  intro o
  obtain ⟨u, hu, hLines⟩ : ∃ u,
      SourceUnit.parse "a.js" "switch (a) \x7b\n    case 1:\n\tb\n  .c;\n\x7d\n" = .ok u ∧
      ∀ l ∈ u.lines, l.indentation.length + 12 < Word.count :=
    exists_ok (by decide +kernel)
  have hListed : ∃ x ∈ styles, o.get? 0 = some x := ⟨.int 4, by decide, rfl⟩
  have hCase : (Step.ofOptions o).switchCase ≤ 1 := by decide
  exact ⟨u, hu, hListed, hCase, hLines, (indent_numbers_fit o).2.2.2 u hListed hCase hLines⟩

/-- One level more than the largest word, and a step that is half of all words. -/
theorem indent_numbers_fit_exceptions :
    (let o : Options := ⟨[.int 2, .object [("SwitchCase", .int 0xFFFFFFFFFFFFFFFF)]]⟩
      ∃ u, SourceUnit.parse "a.js" "switch (a) \x7b\nb;\n\x7d\n" = .ok u ∧
        ¬NumbersFit (.ofOptions o) u ∧ rule.run u o = .error ⟨Word.count⟩) ∧
    (let o : Options := ⟨[.int 0x8000000000000000]⟩
      ∃ u, SourceUnit.parse "a.js" "if (a) \x7b\nb\n.c;\n\x7d\n" = .ok u ∧
        ¬NumbersFit (.ofOptions o) u ∧ rule.run u o = .error ⟨Word.count⟩) := by
  have hLarge {u : SourceUnit} {o : Options} (hRun : rule.run u o = .error ⟨Word.count⟩) :
      ¬NumbersFit (.ofOptions o) u := fun hFits => by
    have hAnswer : rule.run u o = .ok (exactCheck u o).value :=
      (run_rule u o).trans (Traced.inWords_eq_ok_iff.mpr ⟨hFits, rfl⟩)
    cases hAnswer.symm.trans hRun
  constructor
  · intro o
    obtain ⟨u, hu, hRun⟩ : ∃ u, SourceUnit.parse "a.js" "switch (a) \x7b\nb;\n\x7d\n" = .ok u ∧
        rule.run u o = .error ⟨Word.count⟩ :=
      exists_ok (by decide +kernel)
    exact ⟨u, hu, hLarge hRun, hRun⟩
  · intro o
    obtain ⟨u, hu, hRun⟩ : ∃ u, SourceUnit.parse "a.js" "if (a) \x7b\nb\n.c;\n\x7d\n" = .ok u ∧
        rule.run u o = .error ⟨Word.count⟩ :=
      exists_ok (by decide +kernel)
    exact ⟨u, hu, hLarge hRun, hRun⟩

/-! ## Discovery -/

theorem overflow?_eq_none {o : Options} (h : Short (.ofOptions o) u) :
    rule.overflow? u o = none := by
  have hRun := h.run_rule
  rw [Rule.run] at hRun
  split at hRun
  · cases hRun
  · assumption

theorem listed_of_candidate {x : Candidate} (hx : x ∈ (Registry.ofCatalog .builtin).candidates)
    (hRule : x.rule = rule.id) : Listed (.ofOptions ⟨x.options⟩) := by
  have hAll : ∀ x ∈ (Registry.ofCatalog .builtin).candidates, x.rule = rule.id →
      (Step.ofOptions ⟨x.options⟩).size ≤ 4 ∧ (Step.ofOptions ⟨x.options⟩).switchCase ≤ 1 := by
    decide +kernel
  obtain ⟨hSize, hCase⟩ := hAll x hx hRule
  exact ⟨hSize, hCase⟩

end Indent

theorem Catalog.overflow?_builtin {r : Rule} (hr : r ∈ builtin.rules) :
    r = Indent.rule ∨ r.overflow? = fun _ _ => none := by
  simp only [rules_builtin, List.mem_cons, List.not_mem_nil, or_false] at hr
  rcases hr with rfl | rfl | rfl | rfl | rfl | rfl | rfl | rfl | rfl | rfl | rfl | rfl | rfl <;>
    first
    | exact .inr rfl
    | exact .inl rfl

variable {c : Candidate} {u : SourceUnit} {us : List SourceUnit}

theorem Linter.ruleOverflow?_builtin (hc : c ∈ (Registry.ofCatalog .builtin).candidates)
    (hLines : ∀ l ∈ u.lines, l.indentation.length + 12 < Word.count) :
    ruleOverflow? .builtin u c.rule c.setting = none := by
  rw [ruleOverflow?]
  split
  · cases hGet : Catalog.get? .builtin c.rule with
    | none => rfl
    | some r =>
      have hRule : r.id = c.rule := by simpa using List.find?_some hGet
      rw [Option.bind_some]
      rcases Catalog.overflow?_builtin (List.mem_of_find?_eq_some hGet) with rfl | hNone
      · exact Indent.overflow?_eq_none ((Indent.listed_of_candidate hc hRule.symm).short hLines)
      · rw [hNone]
  · rfl

/-- Discovery is not stopped by a width, for the options that it tries are the listed ones. -/
theorem Trial.overflow?_builtin (base : Config) (hc : c ∈ (Registry.ofCatalog .builtin).candidates)
    (hLines : ∀ u ∈ us, ∀ l ∈ u.lines, l.indentation.length + 12 < Word.count) :
    overflow? .builtin base c us = none := by
  induction us with
  | nil => rfl
  | cons u us ih =>
    rw [List.forall_mem_cons] at hLines
    have hEntries : (config base c).rules.entries = [(c.rule, c.setting)] := rfl
    have hUnit : Linter.overflow? .builtin u (config base c) = none := by
      rw [Linter.overflow?, hEntries, List.findSome?_singleton]
      exact Linter.ruleOverflow?_builtin hc hLines.1
    rw [overflow?, hUnit, ih hLines.2]
    exact ite_self none

end RuleScout
