import RuleScout.Proofs.CodeView
import RuleScout.Proofs.ExactWidths
import RuleScout.Proofs.LinePlaces

/-!
# Reindentation

The rule about indentation measures the line of a bracket and counts steps from there. When a file
is indented by another step, what is measured and what is counted change alike: every width is the
same number of steps as before, so the same lines are found. This holds as long as the widths fit a
word; one that does not is cut off, and differently for each step.
-/

set_option autoImplicit false

namespace RuleScout.Indent

variable {a b s : Step} {u v : SourceUnit} {l m : Line} {t n : Token} {i j k w : Nat} {c : Code}

/-! ## Files that differ in their indentation -/

/-- The line is indented by the same number of steps in both files, and does not differ otherwise. -/
structure SameRow (a b : Step) (l m : Line) : Prop where
  firstToken : l.firstToken = m.firstToken
  continued : l.continued = m.continued
  blank : l.isBlank = m.isBlank
  openBrackets : l.openBrackets = m.openBrackets
  indentation : ∃ k, l.indentation = List.replicate (k * a.size) a.character ∧
    m.indentation = List.replicate (k * b.size) b.character

/-- `u` is indented by `a` where `v` is indented by `b`. -/
structure Reindented (a b : Step) (u v : SourceUnit) : Prop where
  kinds : u.tokens.toList.map (·.kind) = v.tokens.toList.map (·.kind)
  texts : u.significantTokens.map (·.text) = v.significantTokens.map (·.text)
  tokenLines : u.tokens.toList.map (·.line) = v.tokens.toList.map (·.line)
  brackets : u.brackets = v.brackets
  rows : List.Forall₂ (SameRow a b) u.lines v.lines

/-- Two steps that are not empty and treat a `case` alike. -/
structure Comparable (a b : Step) : Prop where
  pos : 0 < a.size ∧ 0 < b.size
  switchCase : a.switchCase = b.switchCase

/-- What two tokens that differ in layout have in common. -/
structure SameToken (t n : Token) : Prop where
  kind : t.kind = n.kind
  line : t.line = n.line
  text : t.isSignificant = true → t.text = n.text

/-- The same number of steps. -/
def SameWidth (a b : Step) (w w' : Nat) : Prop := ∃ k, w = k * a.size ∧ w' = k * b.size

/-! ## Tokens -/

theorem SameToken.isSignificant (h : SameToken t n) : t.isSignificant = n.isSignificant := by
  rw [Lexeme.isSignificant, Lexeme.isSignificant, h.kind]

theorem SameToken.toLexeme (h : SameToken t n) (hSignificant : t.isSignificant = true) :
    t.toLexeme = n.toLexeme := by
  obtain ⟨⟨kind, text, line⟩, start, column⟩ := t
  obtain ⟨⟨kind', text', line'⟩, start', column'⟩ := n
  obtain ⟨hKind, hLine, hText⟩ := h
  cases hKind
  cases hLine
  cases hText hSignificant
  rfl

/-- What is asked of tokens of one kind that are not trivia has the same answer. -/
theorem SameToken.asked_eq (h : SameToken t n) {kind : TokenKind} (hCode : kind.isTrivia = false)
    (asked : String → Bool) :
    (decide (t.kind = kind) && asked t.text) = (decide (n.kind = kind) && asked n.text) := by
  rw [← h.kind]
  by_cases hKind : t.kind = kind
  · rw [h.text (by rw [Lexeme.isSignificant, hKind, hCode, Bool.not_false])]
  · simp [hKind]

theorem SameToken.isPunct (h : SameToken t n) (text : String) : t.isPunct text = n.isPunct text :=
  h.asked_eq rfl fun own => decide (own = text)

theorem SameToken.isKeyword (h : SameToken t n) (text : String) :
    t.isKeyword text = n.isKeyword text :=
  h.asked_eq rfl fun own => decide (own = text)

theorem SameToken.isContinuation (h : SameToken t n) (c : Code) (p : Nat) :
    isContinuation c t p = isContinuation c n p := by
  have hStarter : (decide (t.kind = .punctuator) && decide (t.text ∈ continuationStarters)) =
      (decide (n.kind = .punctuator) && decide (n.text ∈ continuationStarters)) :=
    h.asked_eq rfl fun own => decide (own ∈ continuationStarters)
  rw [Indent.isContinuation, Indent.isContinuation, hStarter, h.isPunct]

theorem SameToken.isCloser (h : SameToken t n) : isCloser t = isCloser n := by
  rw [Indent.isCloser, Indent.isCloser, h.isPunct, h.isPunct, h.isPunct]

theorem forall₂_getElem? {α β : Type} {R : α → β → Prop} {xs : List α} {ys : List β}
    (h : List.Forall₂ R xs ys) (i : Nat) :
    (xs[i]? = none ∧ ys[i]? = none) ∨ ∃ x y, xs[i]? = some x ∧ ys[i]? = some y ∧ R x y := by
  induction h generalizing i with
  | nil => exact .inl ⟨rfl, rfl⟩
  | cons hHead hTail ih =>
    cases i with
    | zero => exact .inr ⟨_, _, rfl, rfl, hHead⟩
    | succ i => exact ih i

theorem sameTokens_of_maps {ts ns : List Token} (hKinds : ts.map (·.kind) = ns.map (·.kind))
    (hTexts : (ts.filter (·.isSignificant)).map (·.text) = (ns.filter (·.isSignificant)).map (·.text))
    (hLines : ts.map (·.line) = ns.map (·.line)) : List.Forall₂ SameToken ts ns := by
  induction ts generalizing ns with
  | nil =>
    cases ns with
    | nil => exact .nil
    | cons n ns => cases hKinds
  | cons t ts ih =>
    cases ns with
    | nil => cases hKinds
    | cons n ns =>
      obtain ⟨hKind, hKinds⟩ := List.cons.inj hKinds
      obtain ⟨hLine, hLines⟩ := List.cons.inj hLines
      have hSame : t.isSignificant = n.isSignificant := by
        rw [Lexeme.isSignificant, Lexeme.isSignificant, show t.kind = n.kind from hKind]
      rw [List.filter_cons, List.filter_cons, ← hSame] at hTexts
      split at hTexts
      · obtain ⟨hText, hTexts⟩ := List.cons.inj hTexts
        exact .cons ⟨hKind, hLine, fun _ => hText⟩ (ih hKinds hTexts hLines)
      · rename_i hTrivia
        exact .cons ⟨hKind, hLine, fun hSignificant => absurd hSignificant hTrivia⟩
          (ih hKinds hTexts hLines)

theorem lexemes_of_sameTokens {ts ns : List Token} (h : List.Forall₂ SameToken ts ns) :
    (ts.filter (·.isSignificant)).map Token.toLexeme =
      (ns.filter (·.isSignificant)).map Token.toLexeme := by
  induction h with
  | nil => rfl
  | @cons t n ts ns hHead hTail ih =>
    rw [List.filter_cons, List.filter_cons, ← hHead.isSignificant]
    split
    · rename_i hSignificant
      rw [List.map_cons, List.map_cons, ih, hHead.toLexeme hSignificant]
    · exact ih

namespace Reindented

variable (h : Reindented a b u v)
include h

theorem tokens : List.Forall₂ SameToken u.tokens.toList v.tokens.toList :=
  sameTokens_of_maps h.kinds h.texts h.tokenLines

theorem code_eq : u.code = v.code := by
  rw [SourceUnit.code, SourceUnit.code, SourceUnit.significantTokens, SourceUnit.significantTokens,
    lexemes_of_sameTokens h.tokens]

theorem rank_eq (i : Nat) : u.rank i = v.rank i := by
  have hRank (u : SourceUnit) : u.rank i =
      ((u.tokens.toList.map (·.kind)).take i).countP (!·.isTrivia) := by
    rw [SourceUnit.rank, ← List.map_take, List.countP_map]
    rfl
  rw [hRank, hRank, h.kinds]

theorem token? (i : Nat) : (u.token? i = none ∧ v.token? i = none) ∨
    ∃ t n, u.token? i = some t ∧ v.token? i = some n ∧ SameToken t n := by
  rw [SourceUnit.token?, SourceUnit.token?, ← Array.getElem?_toList, ← Array.getElem?_toList]
  exact forall₂_getElem? h.tokens i

/-! ## Widths -/

theorem lineWidth_same (i : Nat) : SameWidth a b (lineWidth u i) (lineWidth v i) := by
  rw [lineWidth, lineWidth]
  rcases h.token? i with ⟨hu, hv⟩ | ⟨t, n, hu, hv, hSame⟩
  · rw [hu, hv]
    exact ⟨0, by simp, by simp⟩
  · rw [hu, hv]
    dsimp only
    rw [hSame.line]
    rcases forall₂_getElem? h.rows (n.line - 1) with ⟨hl, hm⟩ | ⟨l, m, hl, hm, hRow⟩
    · rw [hl, hm]
      exact ⟨0, by simp, by simp⟩
    · obtain ⟨k, hIndented, hIndented'⟩ := hRow.indentation
      rw [hl, hm]
      exact ⟨k, by simp [hIndented], by simp [hIndented']⟩

variable (hSteps : Comparable a b)
include hSteps

theorem exactBase_same (hRow : SameRow a b l m) (ht : SameToken t n) (first : Nat) :
    SameWidth a b (exactBase u c a l first t).value (exactBase v c b m first n).value := by
  rw [exactBase, exactBase, ← ht.isCloser, ← hRow.openBrackets]
  split
  · have hMatching : u.matching first = v.matching first := by
      rw [SourceUnit.matching, SourceUnit.matching, h.brackets]
    rw [← hMatching]
    cases u.matching first with
    | none => exact ⟨0, by simp, by simp⟩
    | some opener => exact h.lineWidth_same opener
  · cases l.openBrackets.getLast? with
    | none => exact ⟨0, by simp, by simp⟩
    | some opener =>
      have hLevels : exactLevels u c a t opener = exactLevels v c b n opener := by
        rw [exactLevels, exactLevels, h.rank_eq, hSteps.switchCase, ht.isKeyword, ht.isKeyword]
      obtain ⟨k, hu, hv⟩ := h.lineWidth_same opener
      simp only [Traced.value_bind, Traced.number, hu, hv, ← hLevels]
      exact ⟨k + (exactLevels u c a t opener).value, by rw [Nat.add_mul], by rw [Nat.add_mul]⟩

theorem exactWidths_same (hRow : SameRow a b l m) (ht : SameToken t n) (first : Nat) :
    List.Forall₂ (SameWidth a b) (exactWidths u c a l first t).value
      (exactWidths v c b m first n).value := by
  have hBase := h.exactBase_same hSteps (c := c) hRow ht first
  simp only [exactWidths, Traced.value_bind, ← ht.isCloser, ← ht.isContinuation, h.rank_eq]
  split
  · obtain ⟨k, hu, hv⟩ := id hBase
    refine .cons hBase (.cons ⟨k + 1, ?_, ?_⟩ .nil)
    · rw [Traced.number, hu, Nat.succ_mul]
    · rw [Traced.number, hv, Nat.succ_mul]
  · exact .cons hBase .nil

omit hSteps in
theorem nextCodeLine_same {ls ms : List Line} (hRows : List.Forall₂ (SameRow a b) ls ms) :
    (nextCodeLine u ls = none ∧ nextCodeLine v ms = none) ∨
      ∃ l m i t n, nextCodeLine u ls = some (l, i, t) ∧ nextCodeLine v ms = some (m, i, n) ∧
        SameRow a b l m ∧ SameToken t n := by
  induction hRows with
  | nil => exact .inl ⟨rfl, rfl⟩
  | @cons l m ls ms hRow hRest ih =>
    rw [nextCodeLine, nextCodeLine, List.findSome?_cons, List.findSome?_cons, ← hRow.continued,
      ← hRow.firstToken]
    by_cases hContinued : l.continued = true
    · rw [if_pos hContinued, if_pos hContinued]
      exact ih
    rw [if_neg hContinued, if_neg hContinued]
    cases hFirst : l.firstToken with
    | none => exact ih
    | some i =>
      rcases h.token? i with ⟨hu, hv⟩ | ⟨t, n, hu, hv, hSame⟩
      · rw [Option.bind_some, Option.bind_some, hu, hv]
        exact ih
      · rw [Option.bind_some, Option.bind_some, hu, hv, Option.bind_some, Option.bind_some,
          ← hSame.kind]
        by_cases hComment : t.kind.isComment = true
        · rw [if_pos hComment, if_pos hComment]
          exact ih
        · rw [if_neg hComment, if_neg hComment]
          exact .inr ⟨l, m, i, t, n, rfl, rfl, hRow, hSame⟩

theorem exactAccepted_same {ls ms : List Line} (hRows : List.Forall₂ (SameRow a b) ls ms)
    (hRow : SameRow a b l m) (ht : SameToken t n) (first : Nat) :
    List.Forall₂ (SameWidth a b) (exactAccepted u c a l ls first t).value
      (exactAccepted v c b m ms first n).value := by
  have hOwn := h.exactWidths_same hSteps (c := c) hRow ht first
  simp only [exactAccepted, Traced.value_bind, ← ht.kind]
  split
  · rcases h.nextCodeLine_same hRows with ⟨hu, hv⟩ | ⟨k, k', i, r, r', hu, hv, hNext, hSame⟩
    · rw [hu, hv]
      exact hOwn
    · rw [hu, hv]
      exact List.rel_append hOwn (h.exactWidths_same hSteps hNext hSame i)
  · exact hOwn

/-! ## Findings -/

omit h in
theorem fits_eq {w w' : Nat} (hWidth : SameWidth a b w w') (hRow : SameRow a b l m) :
    fits a l.indentation w = fits b m.indentation w' := by
  obtain ⟨k, rfl, rfl⟩ := hWidth
  obtain ⟨i, hIndented, hIndented'⟩ := hRow.indentation
  have hCancel (s : Step) (hPos : 0 < s.size) : i * s.size = k * s.size ↔ i = k :=
    Nat.mul_left_inj (Nat.ne_of_gt hPos)
  rw [fits, fits, hIndented, hIndented', List.length_replicate, List.length_replicate]
  simp only [hCancel a hSteps.pos.1, hCancel b hSteps.pos.2]
  simp

omit h in
theorem judge_lines {ws ws' : List Nat} (hWidths : List.Forall₂ (SameWidth a b) ws ws')
    (hRow : SameRow a b l m) (hNumber : l.number = m.number) :
    (judge a l ws).map (·.line) = (judge b m ws').map (·.line) := by
  have hAny : ws.any (fits a l.indentation) = ws'.any (fits b m.indentation) := by
    induction hWidths with
    | nil => rfl
    | cons hWidth _ ih => rw [List.any_cons, List.any_cons, fits_eq hSteps hWidth hRow, ih]
  simp only [judge, hAny]
  split
  · rfl
  · exact congrArg (fun k => [k]) hNumber

theorem exactLine_lines {ls ms : List Line} (hRows : List.Forall₂ (SameRow a b) ls ms)
    (hRow : SameRow a b l m) (hNumber : l.number = m.number) :
    (exactLine u c a l ls).value.map (·.line) = (exactLine v c b m ms).value.map (·.line) := by
  rw [exactLine, exactLine, ← hRow.firstToken]
  cases l.firstToken with
  | none => rfl
  | some i =>
    dsimp only
    rcases h.token? i with ⟨hu, hv⟩ | ⟨t, n, hu, hv, hSame⟩
    · rw [hu, hv]
    · rw [hu, hv, ← hRow.continued, ← hRow.blank]
      dsimp only
      split
      · rfl
      · exact judge_lines hSteps (h.exactAccepted_same hSteps hRows hRow hSame i) hRow hNumber

theorem exactLines_lines {ls ms : List Line}
    (hRows : List.Forall₂ (fun l m => SameRow a b l m ∧ l.number = m.number) ls ms) :
    (exactLines u c a ls).value.map (·.line) = (exactLines v c b ms).value.map (·.line) := by
  induction hRows with
  | nil => rfl
  | @cons l m ls ms hRow hRest ih =>
    have hLine := h.exactLine_lines hSteps (c := c) (hRest.imp fun _ _ => And.left) hRow.1 hRow.2
    simp only [exactLines, Traced.value_bind, Traced.value_pure, List.map_append]
    rw [hLine, ih]

end Reindented

theorem rows_numbered {ls ms : List Line} {k : Nat} (hRows : List.Forall₂ (SameRow a b) ls ms)
    (hl : ∀ j l, ls[j]? = some l → l.number = k + j) (hm : ∀ j m, ms[j]? = some m → m.number = k + j) :
    List.Forall₂ (fun l m => SameRow a b l m ∧ l.number = m.number) ls ms := by
  induction hRows generalizing k with
  | nil => exact .nil
  | @cons l m ls ms hRow hRest ih =>
    refine .cons ⟨hRow, (hl 0 l rfl).trans (hm 0 m rfl).symm⟩ (ih (k := k + 1) ?_ ?_)
    · intro j l hj
      rw [hl (j + 1) l hj]
      omega
    · intro j m hj
      rw [hm (j + 1) m hj]
      omega

/-- The exact check finds the same lines in a file before and after it is indented by another
step. -/
theorem exactCheck_lines {path path' text text' : String} {o p : Options}
    (hu : SourceUnit.parse path text = .ok u) (hv : SourceUnit.parse path' text' = .ok v)
    (hSame : Reindented (.ofOptions o) (.ofOptions p) u v)
    (hSteps : Comparable (.ofOptions o) (.ofOptions p)) :
    (exactCheck u o).value.map (·.line) = (exactCheck v p).value.map (·.line) := by
  rw [exactCheck, exactCheck, ← hSame.code_eq]
  exact hSame.exactLines_lines hSteps
    (rows_numbered hSame.rows (SourceUnit.number_eq hu) (SourceUnit.number_eq hv))

/-! ## Short lines -/

theorem mem_of_nextCodeLine {ls : List Line} (h : nextCodeLine u ls = some (l, i, t)) : l ∈ ls := by
  obtain ⟨k, hk, hFound⟩ := List.exists_of_findSome?_eq_some h
  split at hFound
  · cases hFound
  · obtain ⟨j, -, hFound⟩ := Option.bind_eq_some_iff.mp hFound
    obtain ⟨r, -, hFound⟩ := Option.bind_eq_some_iff.mp hFound
    split at hFound
    · cases hFound
    · cases hFound
      exact hk

/-- The lines are so short that no number on the way to a width is beyond a word. -/
structure Short (s : Step) (u : SourceUnit) : Prop where
  levels : s.switchCase + 1 < Word.count
  lines : ∀ l ∈ u.lines, l.indentation.length + (s.switchCase + 2) * s.size < Word.count

theorem lineWidth_le (i : Nat) :
    lineWidth u i = 0 ∨ ∃ l ∈ u.lines, lineWidth u i = l.indentation.length := by
  rw [lineWidth]
  split
  · exact .inl rfl
  · rename_i t ht
    cases hLine : u.lines[t.line - 1]? with
    | none => exact .inl rfl
    | some l => exact .inr ⟨l, List.mem_of_getElem? hLine, rfl⟩

theorem exactLevels_le (t : Token) (opener : Nat) :
    (exactLevels u c s t opener).value ≤ s.switchCase + 1 ∧
      ∀ n ∈ (exactLevels u c s t opener).numbers, n ≤ s.switchCase + 1 := by
  rw [exactLevels]
  split
  · split <;> simp [Traced.number]
  · simp

namespace Short

variable (h : Short s u)
include h

theorem lineWidth (hl : l ∈ u.lines) (i : Nat) :
    lineWidth u i + (s.switchCase + 2) * s.size < Word.count := by
  rcases lineWidth_le (u := u) i with hZero | ⟨k, hk, hWidth⟩
  · have hLine := h.lines l hl
    omega
  · rw [hWidth]
    exact h.lines k hk

/-- A line that continues nothing leaves room for another step. -/
theorem exactBase (hl : l ∈ u.lines) (i : Nat) (t : Token) :
    (exactBase u c s l i t).Fits ∧ (exactBase u c s l i t).value + s.size < Word.count := by
  have hTwo : (s.switchCase + 2) * s.size = (s.switchCase + 1) * s.size + s.size :=
    Nat.succ_mul (s.switchCase + 1) s.size
  have hLine := h.lines l hl
  rw [Indent.exactBase, Traced.Fits]
  split
  · refine ⟨List.forall_mem_nil _, ?_⟩
    cases u.matching i with
    | none =>
      rw [Traced.value_pure, Option.map_none, Option.getD_none]
      omega
    | some opener =>
      have hOpener := h.lineWidth hl opener
      rw [Traced.value_pure, Option.map_some, Option.getD_some]
      omega
  · cases l.openBrackets.getLast? with
    | none => exact ⟨List.forall_mem_nil _, by rw [Traced.value_pure]; omega⟩
    | some opener =>
      obtain ⟨hLevels, hNumbers⟩ := exactLevels_le (u := u) (c := c) (s := s) t opener
      have hOpener := h.lineWidth hl opener
      have hSteps := Nat.mul_le_mul_right s.size hLevels
      have hBound := h.levels
      simp only [Traced.numbers_bind, Traced.value_bind, Traced.number, List.forall_mem_append,
        List.forall_mem_singleton]
      exact ⟨⟨fun n hn => Nat.lt_of_le_of_lt (hNumbers n hn) hBound, by omega, by omega⟩, by omega⟩

theorem exactWidths (hl : l ∈ u.lines) (i : Nat) (t : Token) :
    (exactWidths u c s l i t).Fits := by
  obtain ⟨hBase, hDeeper⟩ := h.exactBase (c := c) hl i t
  rw [Traced.Fits, Indent.exactWidths, Traced.numbers_bind, List.forall_mem_append]
  refine ⟨hBase, ?_⟩
  split
  · simpa [Traced.number] using hDeeper
  · exact List.forall_mem_nil _

theorem exactLine {ls : List Line} (hl : l ∈ u.lines) (hLater : ∀ k ∈ ls, k ∈ u.lines) :
    (exactLine u c s l ls).Fits := by
  rw [Traced.Fits, Indent.exactLine]
  split
  · exact List.forall_mem_nil _
  split
  · exact List.forall_mem_nil _
  split
  · exact List.forall_mem_nil _
  rename_i first _ _ t _ _
  simp only [exactAccepted, Traced.numbers_bind, Traced.numbers_pure, List.append_nil,
    List.forall_mem_append]
  refine ⟨h.exactWidths hl first t, ?_⟩
  split
  · split
    · exact List.forall_mem_nil _
    · rename_i k i n hNext
      simp only [Traced.numbers_bind, Traced.numbers_pure, List.append_nil]
      exact h.exactWidths (hLater k (mem_of_nextCodeLine hNext)) i n
  · exact List.forall_mem_nil _

theorem exactLines {ls : List Line} (hLines : ∀ k ∈ ls, k ∈ u.lines) :
    (exactLines u c s ls).Fits := by
  induction ls with
  | nil => exact List.forall_mem_nil _
  | cons l ls ih =>
    rw [List.forall_mem_cons] at hLines
    rw [Traced.Fits, Indent.exactLines]
    simp only [Traced.numbers_bind, Traced.numbers_pure, List.append_nil, List.forall_mem_append]
    exact ⟨h.exactLine hLines.1 hLines.2, ih hLines.2⟩

end Short

theorem Short.run_rule {o : Options} (h : Short (.ofOptions o) u) :
    rule.run u o = .ok (exactCheck u o).value :=
  (Indent.run_rule u o).trans (Traced.inWords_eq_ok_iff.mpr ⟨h.exactLines fun _ => id, rfl⟩)

/-! ## The listed steps -/

/-- The indentations that the options list. -/
def styles : List Value := [.int 2, .int 4, .string "tab"]

theorem step_of_style {x : Value} (hx : x ∈ styles) (rest : List Value) :
    0 < (Step.ofOptions ⟨x :: rest⟩).size ∧ (Step.ofOptions ⟨x :: rest⟩).switchCase =
      (((Options.mk (x :: rest)).property? 1 "SwitchCase").bind Value.nat?).getD 0 := by
  simp only [styles, List.mem_cons, List.not_mem_nil, or_false] at hx
  rcases hx with rfl | rfl | rfl <;> exact ⟨Nat.succ_pos _, rfl⟩

theorem comparable_of_styles {x y : Value} (hx : x ∈ styles) (hy : y ∈ styles) (rest : List Value) :
    Comparable (.ofOptions ⟨x :: rest⟩) (.ofOptions ⟨y :: rest⟩) := by
  obtain ⟨hPos, hCase⟩ := step_of_style hx rest
  obtain ⟨hPos', hCase'⟩ := step_of_style hy rest
  exact ⟨⟨hPos, hPos'⟩, hCase.trans hCase'.symm⟩

/-- The same lines are found in a file before and after it is indented by another step, if the rule
comes to its end in both. It does so when the lines are short, for all steps that the options
list. -/
theorem indent_reindented {path path' text text' : String} (hu : SourceUnit.parse path text = .ok u)
    (hv : SourceUnit.parse path' text' = .ok v) :
    (∀ o p : Options, Reindented (.ofOptions o) (.ofOptions p) u v →
      Comparable (.ofOptions o) (.ofOptions p) → ∀ found found', rule.run u o = .ok found →
      rule.run v p = .ok found' → found.map (·.line) = found'.map (·.line)) ∧
    ∀ x ∈ styles, ∀ y ∈ styles, ∀ rest,
      Reindented (.ofOptions ⟨x :: rest⟩) (.ofOptions ⟨y :: rest⟩) u v →
      Short (.ofOptions ⟨x :: rest⟩) u → Short (.ofOptions ⟨y :: rest⟩) v →
      ∃ found found', rule.run u ⟨x :: rest⟩ = .ok found ∧ rule.run v ⟨y :: rest⟩ = .ok found' ∧
        found.map (·.line) = found'.map (·.line) := by
  constructor
  · intro o p hSame hSteps found found' hFound hFound'
    rw [run_rule, Traced.inWords_eq_ok_iff] at hFound hFound'
    rw [← hFound.2, ← hFound'.2]
    exact exactCheck_lines hu hv hSame hSteps
  · intro x hx y hy rest hSame hShort hShort'
    exact ⟨_, _, hShort.run_rule, hShort'.run_rule,
      exactCheck_lines hu hv hSame (comparable_of_styles hx hy rest)⟩

theorem indent_reindented_tab :
    let spaces := "if (a) \x7b\n  b;\nc;\n\x7d\n"
    let tabs := "if (a) \x7b\n\tb;\nc;\n\x7d\n"
    ∃ u v, SourceUnit.parse "a.js" spaces = .ok u ∧ SourceUnit.parse "a.js" tabs = .ok v ∧
      ∃ found found', rule.run u ⟨[.int 2]⟩ = .ok found ∧
        rule.run v ⟨[.string "tab"]⟩ = .ok found' ∧ found.map (·.line) = [3] ∧
        found.map (·.line) = found'.map (·.line) := by
  intro spaces tabs
  obtain ⟨u, hu, hLines, hLine⟩ : ∃ u, SourceUnit.parse "a.js" spaces = .ok u ∧
      u.lines = [⟨1, "if (a) \x7b", some 0, false, []⟩, ⟨2, "  b;", some 9, false, [6]⟩,
        ⟨3, "c;", some 12, false, [6]⟩, ⟨4, "\x7d", some 15, false, []⟩] ∧
      (rule.check u ⟨[.int 2]⟩).map (·.line) = [3] :=
    exists_ok (by decide +kernel)
  obtain ⟨v, hv, hLines'⟩ : ∃ v, SourceUnit.parse "a.js" tabs = .ok v ∧
      v.lines = [⟨1, "if (a) \x7b", some 0, false, []⟩, ⟨2, "\tb;", some 9, false, [6]⟩,
        ⟨3, "c;", some 12, false, [6]⟩, ⟨4, "\x7d", some 15, false, []⟩] :=
    exists_ok (by decide +kernel)
  have hRest : (SourceUnit.parse "a.js" spaces).toOption.map (fun u =>
        (u.tokens.toList.map (·.kind), u.significantTokens.map (·.text),
          u.tokens.toList.map (·.line), u.brackets)) =
      (SourceUnit.parse "a.js" tabs).toOption.map (fun u =>
        (u.tokens.toList.map (·.kind), u.significantTokens.map (·.text),
          u.tokens.toList.map (·.line), u.brackets)) := by
    decide +kernel
  rw [hu, hv] at hRest
  simp only [Except.toOption, Option.map_some, Option.some_inj, Prod.mk.injEq] at hRest
  obtain ⟨hKinds, hTexts, hTokenLines, hBrackets⟩ := hRest
  have hRows : List.Forall₂ (SameRow (.ofOptions ⟨[.int 2]⟩) (.ofOptions ⟨[.string "tab"]⟩))
      u.lines v.lines := by
    rw [hLines, hLines']
    refine .cons ⟨rfl, rfl, rfl, rfl, 0, rfl, rfl⟩ (.cons ⟨rfl, rfl, ?_, rfl, 1, rfl, rfl⟩
      (.cons ⟨rfl, rfl, rfl, rfl, 0, rfl, rfl⟩ (.cons ⟨rfl, rfl, rfl, rfl, 0, rfl, rfl⟩ .nil)))
    decide
  have hShort : Short (.ofOptions ⟨[.int 2]⟩) u := ⟨by decide, by rw [hLines]; decide⟩
  have hShort' : Short (.ofOptions ⟨[.string "tab"]⟩) v := ⟨by decide, by rw [hLines']; decide⟩
  obtain ⟨found, found', hFound, hFound', hSame⟩ := (indent_reindented hu hv).2 _ (by decide) _
    (by decide) [] ⟨hKinds, hTexts, hTokenLines, hBrackets, hRows⟩ hShort hShort'
  rw [Rule.check_of_run hFound] at hLine
  exact ⟨u, v, hu, hv, found, found', hFound, hFound', hLine, hSame⟩

/-- Two spaces taken 2^63 times do not fit a word, and the rule has no answer. As many tabs do fit,
and a line is found. -/
theorem indent_reindented_exceptions :
    let switchCase : Value := .object [("SwitchCase", .int 0x8000000000000000)]
    ∃ u, SourceUnit.parse "a.js" "switch (a) \x7b\ncase 1:\n\x7d\n" = .ok u ∧
      Reindented (.ofOptions ⟨[.int 2, switchCase]⟩) (.ofOptions ⟨[.string "tab", switchCase]⟩) u u ∧
      Comparable (.ofOptions ⟨[.int 2, switchCase]⟩) (.ofOptions ⟨[.string "tab", switchCase]⟩) ∧
      rule.run u ⟨[.int 2, switchCase]⟩ = .error ⟨0x10000000000000000⟩ ∧
      rule.run u ⟨[.string "tab", switchCase]⟩ =
        .ok [⟨"Expected indentation of 9223372036854775808 tabs but found 0.", 2, 1⟩] := by
  intro switchCase
  obtain ⟨u, hu, hLines, hSpaces, hTab⟩ : ∃ u,
      SourceUnit.parse "a.js" "switch (a) \x7b\ncase 1:\n\x7d\n" = .ok u ∧
      (∀ l ∈ u.lines, l.indentation = []) ∧
      rule.run u ⟨[.int 2, switchCase]⟩ = .error ⟨0x10000000000000000⟩ ∧
      rule.run u ⟨[.string "tab", switchCase]⟩ =
        .ok [⟨"Expected indentation of 9223372036854775808 tabs but found 0.", 2, 1⟩] :=
    exists_ok (by decide +kernel)
  have hRows : List.Forall₂ (SameRow (.ofOptions ⟨[.int 2, switchCase]⟩)
      (.ofOptions ⟨[.string "tab", switchCase]⟩)) u.lines u.lines := by
    refine List.forall₂_same.mpr fun l hl => ⟨rfl, rfl, rfl, rfl, 0, ?_, ?_⟩ <;> simp [hLines l hl]
  exact ⟨u, hu, ⟨rfl, rfl, rfl, rfl, hRows⟩, comparable_of_styles (by decide) (by decide) _, hSpaces,
    hTab⟩

end RuleScout.Indent
