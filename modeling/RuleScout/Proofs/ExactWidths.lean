import RuleScout.Proofs.Fallible
import RuleScout.Rule.Builtin.Indent

/-!
# Widths in exact arithmetic

The check of indentation once more, with numbers that have no bounds and with a record of them. The
check with words is the same one as long as every number of the record fits a word; the first
number that does not fit ends it.
-/

set_option autoImplicit false

namespace RuleScout

/-- A result, and the numbers that were computed on the way to it. -/
structure Traced (α : Type) where
  numbers : List Nat
  value : α

namespace Traced

variable {α β : Type}

instance : Monad Traced where
  pure a := ⟨[], a⟩
  bind x f := ⟨x.numbers ++ (f x.value).numbers, (f x.value).value⟩

def number (n : Nat) : Traced Nat := ⟨[n], n⟩

def Fits (x : Traced α) : Prop := ∀ n ∈ x.numbers, n < Word.count

/-- The same computation with words. -/
def inWords (x : Traced α) : Except Word.Overflow α :=
  match x.numbers.find? (Word.count ≤ ·) with
  | some n => .error ⟨n⟩
  | none => .ok x.value

@[simp] theorem numbers_pure (a : α) : (pure a : Traced α).numbers = [] := rfl

@[simp] theorem value_pure (a : α) : (pure a : Traced α).value = a := rfl

@[simp] theorem numbers_bind (x : Traced α) (f : α → Traced β) :
    (x >>= f).numbers = x.numbers ++ (f x.value).numbers := rfl

@[simp] theorem value_bind (x : Traced α) (f : α → Traced β) :
    (x >>= f).value = (f x.value).value := rfl

@[simp] theorem inWords_pure (a : α) : (pure a : Traced α).inWords = .ok a := rfl

theorem inWords_number (n : Nat) : (number n).inWords = Word.checked n := by
  rw [inWords, Word.checked, number, List.find?_singleton]
  by_cases hFits : n < Word.count
  · rw [if_pos hFits, if_neg (by simpa using hFits)]
  · rw [if_neg hFits, if_pos (by simpa using hFits)]

theorem inWords_bind (x : Traced α) (f : α → Traced β) :
    (x >>= f).inWords = x.inWords >>= fun a => (f a).inWords := by
  rw [inWords, inWords, numbers_bind, List.find?_append]
  cases x.numbers.find? (Word.count ≤ ·) with
  | some n => rfl
  | none => rfl

theorem inWords_eq_ok_iff {x : Traced α} {a : α} : x.inWords = .ok a ↔ x.Fits ∧ x.value = a := by
  rw [inWords]
  cases hFind : x.numbers.find? (Word.count ≤ ·) with
  | some n =>
    have hLarge : Word.count ≤ n := by simpa using List.find?_some hFind
    refine iff_of_false (fun h => by cases h) fun ⟨hFits, _⟩ => ?_
    exact absurd (hFits n (List.mem_of_find?_eq_some hFind)) (Nat.not_lt.mpr hLarge)
  | none =>
    have hFits : x.Fits := fun n hn => by simpa using List.find?_eq_none.mp hFind n hn
    simp [hFits]

end Traced

namespace Indent

variable (u : SourceUnit) (c : Code) (s : Step)

/-! ## The widths of a line -/

def exactLevels (t : Token) (opener : Nat) : Traced Nat :=
  if c.followsHeader (u.rank opener) ["switch"] then
    .number (s.switchCase + if t.isKeyword "case" || t.isKeyword "default" then 0 else 1)
  else return 1

def exactBase (line : Line) (first : Nat) (t : Token) : Traced Nat := do
  if isCloser t then return ((u.matching first).map (lineWidth u)).getD 0
  else
    match line.openBrackets.getLast? with
    | none => return 0
    | some opener =>
      let count ← exactLevels u c s t opener
      let steps ← Traced.number (count * s.size)
      Traced.number (lineWidth u opener + steps)

def exactWidths (line : Line) (first : Nat) (t : Token) : Traced (List Nat) := do
  let base ← exactBase u c s line first t
  if !isCloser t && isContinuation c t (u.rank first) then
    let deeper ← Traced.number (base + s.size)
    return [base, deeper]
  else return [base]

def exactAccepted (line : Line) (later : List Line) (first : Nat) (t : Token) :
    Traced (List Nat) := do
  let own ← exactWidths u c s line first t
  if t.kind.isComment then
    match nextCodeLine u later with
    | none => return own
    | some (next, i, n) =>
      let others ← exactWidths u c s next i n
      return own ++ others
  else return own

/-! ## The check -/

def exactLine (line : Line) (later : List Line) : Traced (List Violation) := do
  match line.firstToken with
  | none => return []
  | some first =>
    match u.token? first with
    | none => return []
    | some t =>
      if line.continued || line.isBlank then return []
      else
        let accepted ← exactAccepted u c s line later first t
        return judge s line accepted

def exactLines : List Line → Traced (List Violation)
  | [] => return []
  | line :: later => do
    let found ← exactLine u c s line later
    let others ← exactLines later
    return found ++ others

/-- The check of a unit. -/
def exactCheck (o : Options) : Traced (List Violation) :=
  exactLines u u.code (.ofOptions o) u.lines

/-! ## With words -/

variable {u c s}

theorem levels_eq (t : Token) (opener : Nat) :
    levels u c s t opener = (exactLevels u c s t opener).inWords := by
  rw [levels, exactLevels]
  split
  · rw [Traced.inWords_number]
  · rfl

theorem baseWidth_eq (line : Line) (first : Nat) (t : Token) :
    baseWidth u c s line first t = (exactBase u c s line first t).inWords := by
  rw [baseWidth, exactBase]
  split
  · rfl
  · cases line.openBrackets.getLast? with
    | none => rfl
    | some opener => simp only [levels_eq, Traced.inWords_bind, Traced.inWords_number]

theorem expectedWidths_eq (line : Line) (first : Nat) (t : Token) :
    expectedWidths u c s line first t = (exactWidths u c s line first t).inWords := by
  rw [expectedWidths, exactWidths, Traced.inWords_bind, baseWidth_eq]
  congr 1
  funext base
  split
  · rw [Traced.inWords_bind, Traced.inWords_number]
    rfl
  · rfl

theorem acceptedWidths_eq (line : Line) (later : List Line) (first : Nat) (t : Token) :
    acceptedWidths u c s line later first t =
      (exactAccepted u c s line later first t).inWords := by
  rw [acceptedWidths, exactAccepted, Traced.inWords_bind, expectedWidths_eq]
  congr 1
  funext own
  split
  · cases nextCodeLine u later with
    | none => rfl
    | some found =>
      obtain ⟨next, i, n⟩ := found
      simp only [expectedWidths_eq, Traced.inWords_bind]
      rfl
  · rfl

theorem checkLine_eq (line : Line) (later : List Line) :
    checkLine u c s line later = (exactLine u c s line later).inWords := by
  rw [checkLine, exactLine]
  cases line.firstToken with
  | none => rfl
  | some first =>
    cases hToken : u.token? first with
    | none => simp only [hToken]; rfl
    | some t =>
      simp only [hToken]
      split
      · rfl
      · rw [acceptedWidths_eq, Traced.inWords_bind]
        rfl

theorem checkLines_eq (ls : List Line) :
    checkLines u c s ls = (exactLines u c s ls).inWords := by
  induction ls with
  | nil => rfl
  | cons line later ih =>
    rw [checkLines, exactLines, Traced.inWords_bind, checkLine_eq, ih]
    congr 1
    funext found
    rw [Traced.inWords_bind]
    rfl

/-- The rule is the exact check as long as all numbers fit. -/
theorem run_rule (u : SourceUnit) (o : Options) : rule.run u o = (exactCheck u o).inWords := by
  rw [rule, Rule.run_ofRun, checkLines_eq, exactCheck]

/-- Whatever is reported is reported by the exact check. -/
theorem mem_exactCheck {u : SourceUnit} {o : Options} {v : Violation} (hv : v ∈ rule.check u o) :
    v ∈ (exactCheck u o).value := by
  simp only [rule, Rule.ofRun, checkLines_eq] at hv
  split at hv
  · rename_i found hFound
    rwa [exactCheck, (Traced.inWords_eq_ok_iff.mp hFound).2]
  · cases hv

end Indent

end RuleScout
