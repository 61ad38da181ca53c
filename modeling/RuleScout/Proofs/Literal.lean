import RuleScout.Source.Literal

/-!
# Where runs and literals end

A run of characters ends where the next character does not belong to it. A literal ends by
itself: what stands behind it makes no difference to where it ends. Both are said here of a text
that is split into the part that is read and the rest.
-/

set_option autoImplicit false

namespace RuleScout

/-- The first `n` characters are read, whatever stands behind them. -/
def EndsAt (scan : List Char → Option Nat) (cs : List Char) (n : Nat) : Prop :=
  n ≤ cs.length ∧ ∀ rest, scan (cs.take n ++ rest) = some n

def Delimited (scan : List Char → Option Nat) : Prop :=
  ∀ cs n, scan cs = some n → EndsAt scan cs n

/-- What is read stands by itself in front of the rest. -/
theorem Delimited.split {scan : List Char → Option Nat} (hScan : Delimited scan) {cs : List Char}
    {n : Nat} (h : scan cs = some n) :
    ∃ pre rest, cs = pre ++ rest ∧ pre.length = n ∧ scan pre = some pre.length := by
  obtain ⟨hLe, hAny⟩ := hScan cs n h
  have hLength : (cs.take n).length = n := List.length_take_of_le hLe
  refine ⟨cs.take n, cs.drop n, (List.take_append_drop n cs).symm, hLength, ?_⟩
  have hAlone := hAny []
  rw [hLength]
  rwa [List.append_nil] at hAlone

theorem Delimited.append {scan : List Char → Option Nat} (hScan : Delimited scan)
    {pre : List Char} (h : scan pre = some pre.length) (rest : List Char) :
    scan (pre ++ rest) = some pre.length := by
  have hAny := (hScan _ _ h).2 rest
  rwa [List.take_length] at hAny

/-- Some characters are skipped, and what is behind them ends by itself. -/
theorem endsAt_append {scan inner : List Char → Option Nat} (skipped : List Char)
    (hStep : ∀ tail, scan (skipped ++ tail) = (inner tail).map (· + skipped.length))
    {cs : List Char} {n : Nat} (hInner : ∀ m, inner cs = some m → EndsAt inner cs m)
    (h : scan (skipped ++ cs) = some n) : EndsAt scan (skipped ++ cs) n := by
  rw [hStep] at h
  obtain ⟨m, hm, rfl⟩ := Option.map_eq_some_iff.mp h
  obtain ⟨hLe, hAny⟩ := hInner m hm
  constructor
  · rw [List.length_append]
    omega
  · intro rest
    have hTake : (skipped ++ cs).take (m + skipped.length) = skipped ++ cs.take m := by
      rw [Nat.add_comm, List.take_length_add_append]
    rw [hTake, List.append_assoc, hStep, hAny rest, Option.map_some]

/-! ## Runs -/

/-- `pre` is the longest run of characters with the property `p` in front of `rest`. -/
structure LongestRun (p : Char → Bool) (pre rest : List Char) : Prop where
  inside : ∀ c ∈ pre, p c = true
  stops : ∀ c ∈ rest.head?, p c = false

theorem mem_head?_of_shorter {xs ys : List Char} (h : xs <+: ys) :
    ∀ c ∈ xs.head?, c ∈ ys.head? := by
  obtain ⟨zs, rfl⟩ := h
  cases xs with
  | nil =>
    intro c hc
    cases hc
  | cons x xs => exact fun c hc => hc

theorem LongestRun.shorten {p : Char → Bool} {pre rest less : List Char} (h : LongestRun p pre rest)
    (hLess : less <+: rest) : LongestRun p pre less :=
  ⟨h.inside, fun c hc => h.stops c (mem_head?_of_shorter hLess c hc)⟩

namespace Literal

theorem exists_longestRun (p : Char → Bool) (cs : List Char) :
    ∃ pre rest, cs = pre ++ rest ∧ LongestRun p pre rest := by
  refine ⟨cs.takeWhile p, cs.dropWhile p, List.takeWhile_append_dropWhile.symm, ?_, ?_⟩
  · exact List.all_eq_true.mp List.all_takeWhile
  · intro c hc
    have hNot := List.head?_dropWhile_not p cs
    rw [hc] at hNot
    exact hNot

theorem runLength_append {p : Char → Bool} {pre rest : List Char} (h : LongestRun p pre rest) :
    runLength p (pre ++ rest) = pre.length := by
  rw [runLength, List.takeWhile_append_of_pos h.inside]
  cases rest with
  | nil => simp
  | cons c cs => simp [h.stops c rfl]

/-! ## Strings -/

theorem scanString_plain {quote c : Char} (cs : List Char) (hc : c ≠ '\\') :
    scanString quote (c :: cs) =
      if c = '\n' ∨ c = '\r' then none
      else if c = quote then some 1 else (scanString quote cs).map (· + 1) := by
  rw [scanString.eq_3 _ _ _ fun _ _ h => absurd h hc]
  simp

/-- A backslash that nothing follows is no escape, and it leaves the string open. -/
theorem scanString_loneBackslash {quote : Char} (hQuote : quote ≠ '\\') :
    scanString quote ['\\'] = none := by
  rw [scanString.eq_3 _ _ _ fun _ _ _ h => by cases h]
  simp [scanString, Ne.symm hQuote]

theorem scanString_delimited (quote : Char) (hQuote : quote ≠ '\\') :
    Delimited (scanString quote) := by
  intro cs n h
  induction cs using scanString.induct quote generalizing n with
  | case1 => cases h
  | case2 d cs ih => exact endsAt_append ['\\', d] (fun _ => rfl) ih h
  | case3 c cs hPlain hBreak =>
    rw [scanString.eq_3 _ _ _ hPlain, if_pos hBreak] at h
    cases h
  | case4 cs hPlain hBreak =>
    rw [scanString.eq_3 _ _ _ hPlain, if_neg hBreak, if_pos rfl] at h
    cases h
    refine ⟨Nat.succ_le_succ (Nat.zero_le _), fun rest => ?_⟩
    simpa [scanString_plain _ hQuote] using hBreak
  | case5 c cs hPlain hBreak hOther ih =>
    have hc : c ≠ '\\' := by
      rintro rfl
      cases cs with
      | nil => rw [scanString_loneBackslash hQuote] at h; cases h
      | cons d cs => exact hPlain d cs rfl rfl
    refine endsAt_append [c] (fun tail => ?_) ih h
    rw [List.singleton_append, scanString_plain _ hc, if_neg (by simpa using hBreak), if_neg hOther,
      List.length_singleton]

/-! ## Regular expressions -/

theorem scanRegexBody_plain {c : Char} (inClass : Bool) (cs : List Char) (hEscape : c ≠ '\\')
    (hOpen : c ≠ '[') (hClose : c ≠ ']') :
    scanRegexBody inClass (c :: cs) =
      if c = '\n' ∨ c = '\r' then none
      else if c = '/' ∧ inClass = false then some 1
      else (scanRegexBody inClass cs).map (· + 1) := by
  rw [scanRegexBody.eq_5 _ _ _ (fun _ _ h => absurd h hEscape) hOpen hClose]
  simp

theorem scanRegexBody_loneBackslash (inClass : Bool) : scanRegexBody inClass ['\\'] = none := by
  rw [scanRegexBody.eq_5 _ _ _ (fun _ _ _ h => by cases h) (by decide) (by decide)]
  simp [scanRegexBody]

theorem scanRegexBody_delimited (inClass : Bool) :
    Delimited (scanRegexBody inClass) := by
  intro cs n h
  induction inClass, cs using scanRegexBody.induct generalizing n with
  | case1 => cases h
  | case2 inClass d cs ih => exact endsAt_append ['\\', d] (fun _ => rfl) ih h
  | case3 inClass cs ih => exact endsAt_append ['['] (fun _ => rfl) ih h
  | case4 inClass cs ih => exact endsAt_append [']'] (fun _ => rfl) ih h
  | case5 inClass c cs hPlain hOpen hClose hBreak =>
    rw [scanRegexBody.eq_5 _ _ _ hPlain hOpen hClose, if_pos hBreak] at h
    cases h
  | case6 inClass c cs hPlain hOpen hClose hBreak hSlash =>
    have hc : c = '/' ∧ inClass = false := by simpa using hSlash
    rw [scanRegexBody.eq_5 _ _ _ hPlain hOpen hClose, if_neg hBreak, if_pos hSlash] at h
    cases h
    refine ⟨Nat.succ_le_succ (Nat.zero_le _), fun rest => ?_⟩
    obtain ⟨rfl, rfl⟩ := hc
    simp [scanRegexBody_plain]
  | case7 inClass c cs hPlain hOpen hClose hBreak hSlash ih =>
    have hc : c ≠ '\\' := by
      rintro rfl
      cases cs with
      | nil => rw [scanRegexBody_loneBackslash] at h; cases h
      | cons d cs => exact hPlain d cs rfl rfl
    refine endsAt_append [c] (fun tail => ?_) ih h
    rw [List.singleton_append, scanRegexBody_plain _ _ hc hOpen hClose,
      if_neg (by simpa using hBreak), if_neg (by simpa using hSlash), List.length_singleton]

/-- A regular expression is a body that ends by itself, and the run of flags behind it. -/
theorem scanRegex_eq_iff (cs : List Char) (n : Nat) :
    scanRegex cs = some n ↔
      ∃ body flags rest, cs = body ++ flags ++ rest ∧ (body ++ flags).length = n ∧
        scanRegexBody false body = some body.length ∧ LongestRun isFlag flags rest := by
  rw [scanRegex, Option.map_eq_some_iff]
  constructor
  · rintro ⟨m, hBody, rfl⟩
    obtain ⟨body, behind, rfl, rfl, hAlone⟩ := (scanRegexBody_delimited false).split hBody
    obtain ⟨flags, rest, rfl, hFlags⟩ := exists_longestRun isFlag behind
    refine ⟨body, flags, rest, (List.append_assoc ..).symm, ?_, hAlone, hFlags⟩
    rw [List.drop_left, runLength_append hFlags, List.length_append]
  · rintro ⟨body, flags, rest, rfl, rfl, hBody, hFlags⟩
    rw [List.append_assoc]
    refine ⟨body.length, (scanRegexBody_delimited false).append hBody _, ?_⟩
    rw [List.drop_left, runLength_append hFlags, List.length_append]

/-! ## Block comments -/

theorem scanBlockComment_cons (c : Char) (cs : List Char) :
    scanBlockComment (c :: cs) =
      if c = '*' ∧ cs.head? = some '/' then some 2 else (scanBlockComment cs).map (· + 1) := by
  by_cases hEnd : c = '*' ∧ cs.head? = some '/'
  · obtain ⟨rfl, hSlash⟩ := hEnd
    obtain ⟨tail, rfl⟩ := List.head?_eq_some_iff.mp hSlash
    rfl
  · rw [if_neg hEnd, scanBlockComment.eq_3]
    rintro tail rfl rfl
    exact hEnd ⟨rfl, rfl⟩

theorem scanBlockComment_pos {cs : List Char} {n : Nat} (h : scanBlockComment cs = some n) :
    0 < n := by
  cases cs with
  | nil => cases h
  | cons c cs =>
    rw [scanBlockComment_cons] at h
    split at h
    · cases h
      decide
    · obtain ⟨m, -, rfl⟩ := Option.map_eq_some_iff.mp h
      exact Nat.succ_pos m

theorem scanBlockComment_delimited : Delimited scanBlockComment := by
  intro cs n h
  induction cs generalizing n with
  | nil => cases h
  | cons c cs ih =>
    rw [scanBlockComment_cons] at h
    split at h
    · rename_i hEnd
      obtain ⟨rfl, hSlash⟩ := hEnd
      obtain ⟨tail, rfl⟩ := List.head?_eq_some_iff.mp hSlash
      cases h
      exact ⟨by simp, fun rest => by simp [scanBlockComment]⟩
    · rename_i hOpen
      obtain ⟨m, hm, rfl⟩ := Option.map_eq_some_iff.mp h
      obtain ⟨hLe, hAny⟩ := ih m hm
      have hPos := scanBlockComment_pos hm
      refine ⟨Nat.succ_le_succ hLe, fun rest => ?_⟩
      -- the character behind `c` is one of those that are read
      have hHead : (cs.take m ++ rest).head? = cs.head? := by
        cases cs with
        | nil => simp at hLe; omega
        | cons d cs =>
          obtain ⟨k, rfl⟩ : ∃ k, m = k + 1 := ⟨m - 1, by omega⟩
          rfl
      rw [List.take_succ_cons, List.cons_append, scanBlockComment_cons, hHead, if_neg hOpen,
        hAny rest, Option.map_some]

end Literal

end RuleScout
