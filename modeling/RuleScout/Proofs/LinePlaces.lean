import RuleScout.Proofs.Terminators

/-!
# Lines and the places in them

A place in a text is given by what stands in front of it and behind it. The line there is made of
what follows the last line feed before the place and of what precedes the next one behind it.
-/

set_option autoImplicit false

namespace RuleScout

open Text

namespace Line

variable {c : Char} {cs xs ys : List Char}

/-- What stands behind the last line feed. -/
def lastPart (cs : List Char) : List Char := (cs.reverse.takeWhile (· ≠ '\n')).reverse

/-- What stands in front of the first line feed. -/
def firstPart (cs : List Char) : List Char := cs.takeWhile (· ≠ '\n')

theorem firstPart_append (h : '\n' ∉ xs) (ys : List Char) :
    firstPart (xs ++ ys) = xs ++ firstPart ys := by
  refine List.takeWhile_append_of_pos fun d hd => decide_eq_true ?_
  rintro rfl
  exact h hd

theorem firstPart_cons (hc : c ≠ '\n') (cs : List Char) : firstPart (c :: cs) = c :: firstPart cs :=
  List.takeWhile_cons_of_pos (decide_eq_true hc)

theorem firstPart_eq_self (h : '\n' ∉ cs) : firstPart cs = cs := by
  simpa [firstPart] using firstPart_append h []

theorem firstPart_isPrefix (xs ys : List Char) : firstPart xs <+: firstPart (xs ++ ys) := by
  rw [firstPart, firstPart, List.takeWhile_append]
  split
  · exact (List.takeWhile_prefix _).trans (List.prefix_append _ _)
  · exact List.prefix_rfl

theorem lastPart_append (h : '\n' ∉ ys) (xs : List Char) :
    lastPart (xs ++ ys) = lastPart xs ++ ys := by
  have hReverse : '\n' ∉ ys.reverse := by rwa [List.mem_reverse]
  rw [lastPart, List.reverse_append, ← firstPart, firstPart_append hReverse, List.reverse_append,
    List.reverse_reverse, lastPart, firstPart]

theorem lastPart_eq_self (h : '\n' ∉ cs) : lastPart cs = cs := lastPart_append h []

theorem lastPart_concat_feed (cs : List Char) : lastPart (cs ++ ['\n']) = [] := by
  simp [lastPart]

theorem lastPart_cons (h : '\n' ∈ c :: cs) : lastPart (c :: cs) = lastPart cs := by
  by_cases hMem : '\n' ∈ cs
  · have hInside : ¬(cs.reverse.takeWhile (· ≠ '\n')).length = cs.reverse.length := by
      intro hAll
      have hSame := (List.takeWhile_prefix _).eq_of_length hAll
      have hNone : cs.reverse.all (· ≠ '\n') = true := by
        rw [← hSame]
        exact List.all_takeWhile
      simpa using List.all_eq_true.mp hNone _ (List.mem_reverse.mpr hMem)
    rw [lastPart, List.reverse_cons, List.takeWhile_append, if_neg hInside, ← lastPart]
  · obtain rfl : '\n' = c := (List.mem_cons.mp h).resolve_right hMem
    rw [← List.singleton_append, lastPart_append hMem, lastPart_eq_self hMem]
    rfl

/-! ## The parts of a text -/

theorem exists_split (cs : List Char) : ∃ ls, split cs = firstPart cs :: ls := by
  induction cs with
  | nil => exact ⟨[], rfl⟩
  | cons c cs ih =>
    by_cases hc : c = '\n'
    · subst hc
      exact ⟨split cs, rfl⟩
    · obtain ⟨ls, hSplit⟩ := ih
      refine ⟨ls, ?_⟩
      rw [split_cons hc, hSplit, firstPart_cons hc]
      rfl

theorem length_split (cs : List Char) : (split cs).length = cs.count '\n' + 1 := by
  induction cs with
  | nil => rfl
  | cons c cs ih =>
    by_cases hc : c = '\n'
    · subst hc
      rw [split, if_pos rfl, List.length_cons, ih, List.count_cons_self]
    · obtain ⟨ls, hSplit⟩ := exists_split cs
      rw [split_cons hc, List.count_cons_of_ne hc, ← ih, hSplit]
      rfl

theorem split_append_feed {p : List Char} (hp : '\n' ∉ p) (q : List Char) :
    split (p ++ '\n' :: q) = p :: split q := by
  induction p with
  | nil => rfl
  | cons c p ih =>
    rw [List.mem_cons, not_or] at hp
    rw [List.cons_append, split_cons (Ne.symm hp.1), ih hp.2]
    rfl

theorem split_eq_self (h : '\n' ∉ cs) : split cs = [cs] := by
  obtain ⟨ls, hSplit⟩ := exists_split cs
  have hLength := length_split cs
  rw [hSplit, List.count_eq_zero.mpr h, List.length_cons, Nat.zero_add,
    Nat.add_eq_right, List.length_eq_zero_iff] at hLength
  rw [hSplit, hLength, firstPart_eq_self h]

/-- The part at a place joins what stands around the place. -/
theorem getElem?_split (xs ys : List Char) :
    (split (xs ++ ys))[xs.count '\n']? = some (lastPart xs ++ firstPart ys) := by
  induction xs with
  | nil =>
    obtain ⟨ls, hSplit⟩ := exists_split ys
    rw [List.nil_append, hSplit]
    rfl
  | cons c xs ih =>
    by_cases hc : c = '\n'
    · subst hc
      rw [List.cons_append, split, if_pos rfl, List.count_cons_self, List.getElem?_cons_succ, ih,
        lastPart_cons List.mem_cons_self]
    obtain ⟨ls, hSplit⟩ := exists_split (xs ++ ys)
    rw [List.cons_append, split_cons hc, List.count_cons_of_ne hc, hSplit]
    by_cases hMem : '\n' ∈ xs
    · obtain ⟨k, hk⟩ := Nat.exists_eq_succ_of_ne_zero (List.count_pos_iff.mpr hMem).ne'
      rw [lastPart_cons (List.mem_cons_of_mem c hMem), ← ih, hSplit, hk]
      rfl
    · have hNone : '\n' ∉ c :: xs := by
        rw [List.mem_cons, not_or]
        exact ⟨Ne.symm hc, hMem⟩
      rw [List.count_eq_zero.mpr hMem, lastPart_eq_self hNone, firstPart_append hMem]
      rfl

/-- A place behind a line feed at the very end is on no line. -/
theorem getElem?_texts (h : ys = [] → xs.getLast? ≠ some '\n') :
    (texts (xs ++ ys))[xs.count '\n']? = some (dropReturn (lastPart xs ++ firstPart ys)) := by
  have hPart := getElem?_split xs ys
  rw [texts, List.getElem?_map]
  split
  · rename_i hFeed
    have hMem : '\n' ∈ ys := by
      cases ys with
      | nil => exact absurd (List.append_nil xs ▸ hFeed) (h rfl)
      | cons d ys => exact List.mem_of_getLast? (by rwa [List.getLast?_append_cons] at hFeed)
    have hInside : xs.count '\n' < (split (xs ++ ys)).length - 1 := by
      rw [length_split, Nat.add_sub_cancel, List.count_append]
      exact Nat.lt_add_of_pos_right (List.count_pos_iff.mpr hMem)
    rw [List.getElem?_dropLast, if_pos hInside, hPart, Option.map_some]
  · rw [hPart, Option.map_some]

/-! ## The returns at the end of lines -/

theorem dropReturn_append (h : ys ≠ []) (xs : List Char) :
    dropReturn (xs ++ ys) = xs ++ dropReturn ys := by
  rw [dropReturn, dropReturn, List.getLast?_append_of_ne_nil _ h, List.dropLast_append_of_ne_nil h]
  split
  · rfl
  · rfl

theorem dropReturn_isPrefix (xs : List Char) : dropReturn xs <+: xs := by
  rw [dropReturn]
  split
  · exact List.dropLast_prefix xs
  · exact List.prefix_rfl

theorem dropReturn_prefix_append (xs ys : List Char) : dropReturn xs <+: dropReturn (xs ++ ys) := by
  by_cases hys : ys = []
  · exact ⟨[], by rw [hys, List.append_nil, List.append_nil]⟩
  · rw [dropReturn_append hys]
    exact (dropReturn_isPrefix xs).trans (List.prefix_append xs _)

theorem dropReturn_eq_self (h : '\r' ∉ cs) : dropReturn cs = cs := by
  rw [dropReturn, if_neg fun hLast => h (List.mem_of_getLast? hLast)]

/-! ## The lines of a unit -/

theorem getElem?_layOut (enclosing : Nat → List Nat) (k covered : Nat) (ts : List (Token × Nat))
    (texts : List (List Char)) (j : Nat) :
    (layOut enclosing k covered ts texts)[j]?.map (fun l => (l.number, l.chars)) =
      texts[j]?.map (k + j, ·) := by
  induction texts generalizing k covered ts j with
  | nil => rfl
  | cons text texts ih =>
    rw [layOut]
    cases j with
    | zero => simp [Line.chars]
    | succ j =>
      rw [List.getElem?_cons_succ, List.getElem?_cons_succ, ih, Nat.add_right_comm]
      rfl

end Line

namespace SourceUnit

variable {u : SourceUnit} {path text : String} {xs ys : List Char}

theorem getElem?_lines (h : parse path text = .ok u) (j : Nat) :
    u.lines[j]?.map (fun l => (l.number, l.chars)) =
      (Line.texts text.toList)[j]?.map (1 + j, ·) := by
  obtain ⟨ts, n, -, -, rfl⟩ := parse_eq_ok_iff.mp h
  exact Line.getElem?_layOut _ _ _ _ _ _

theorem number_eq (h : parse path text = .ok u) (j : Nat) (l : Line) (hl : u.lines[j]? = some l) :
    l.number = 1 + j := by
  have hLine := getElem?_lines h j
  rw [hl, Option.map_some, eq_comm, Option.map_eq_some_iff] at hLine
  obtain ⟨chars, -, hFields⟩ := hLine
  exact (Prod.mk.inj hFields).1.symm

/-- The line of a unit at a place in its text. -/
theorem exists_line (h : parse path text = .ok u) (hText : text.toList = xs ++ ys)
    (hEnd : ys = [] → xs.getLast? ≠ some '\n') :
    ∃ l, u.lines[xs.count '\n']? = some l ∧ l.number = xs.count '\n' + 1 ∧
      l.chars = Line.dropReturn (Line.lastPart xs ++ Line.firstPart ys) := by
  have hLine := getElem?_lines h (xs.count '\n')
  rw [hText, Line.getElem?_texts hEnd, Option.map_some, Option.map_eq_some_iff] at hLine
  obtain ⟨l, hAt, hFields⟩ := hLine
  obtain ⟨hNumber, hChars⟩ := Prod.mk.inj hFields
  exact ⟨l, hAt, hNumber.trans (Nat.add_comm _ _), hChars⟩

theorem position_extent (xs ys : List Char) :
    position (xs ++ ys) (extent xs) = (xs.count '\n' + 1, (Line.lastPart xs).length + 1) := by
  rw [position, takeExtent_extent_append, Line.lastPart, List.length_reverse]

end SourceUnit

end RuleScout
