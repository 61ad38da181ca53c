import RuleScout.Proofs.Fallible
import RuleScout.Proofs.Literal
import RuleScout.Source.LexError
import RuleScout.Text.Extent

/-!
# Slices of a text

A text may be read by byte offsets: what stands at an offset is taken from a slice of the text. A
slice has to start and end between two characters, or the reader traps. Here are the slices, and
on them the searches for the end of a run, of a string, of a regular expression and of a block
comment. From an offset between two characters none of them traps, and each comes to the offset
behind the characters that are counted where no offsets are used.
-/

set_option autoImplicit false

namespace RuleScout.Bytewise

open Text Literal

/-- What must not happen while a text is read by offsets. -/
inductive Trap where
  /-- A slice that does not lie between two places of the text. -/
  | slice (first last : Nat)
  | underflow (whole part : Nat)
  /-- A step that does not go forward. -/
  | stuck (offset : Nat)
  deriving DecidableEq, Repr

/-- Why the reader ends early. -/
inductive Halt where
  | trapped (t : Trap)
  | rejected (e : LexError)
  deriving DecidableEq, Repr

/-- The characters from one offset to another. No character may lie across either of them. -/
def slice (text : List Char) (first last : Nat) : Except Halt (List Char) :=
  let before := takeExtent first text
  let upTo := takeExtent last text
  if first ≤ last ∧ extent before = first ∧ extent upTo = last then .ok (upTo.drop before.length)
  else .error (.trapped (.slice first last))

/-- The difference of two numbers, which must not be below zero. -/
def minus (whole part : Nat) : Except Halt Nat :=
  if part ≤ whole then .ok (whole - part) else .error (.trapped (.underflow whole part))

/-- The offset `j`, which must be behind the offset `i`. -/
def forward (i j : Nat) : Except Halt { k : Nat // i < k } :=
  if h : i < j then .ok ⟨j, h⟩ else .error (.trapped (.stuck i))

/-- The offset that was found, or else an error at `start`. -/
def foundOr (fault : LexFault) (start : Nat) (found : Option Nat) : Except Halt Nat :=
  match found with
  | some i => .ok i
  | none => .error (.rejected ⟨fault, start⟩)

def peek (text : List Char) (i ahead : Nat) : Except Halt (Option Char) := do
  let rest ← slice text i (extent text)
  return rest[ahead]?

/-- The characters with their offsets, the first of them at `i`. -/
def charIndices : Nat → List Char → List (Nat × Char)
  | _, [] => []
  | i, c :: cs => (i, c) :: charIndices (i + c.utf8Size) cs

/-- The offset from `start` on where the characters with the property `p` end. -/
def scanWhile (text : List Char) (start : Nat) (p : Char → Bool) : Except Halt Nat := do
  let rest ← slice text start (extent text)
  match (charIndices 0 rest).find? fun found => !p found.2 with
  | some (i, _) => return start + i
  | none => return extent text

/-- The offset of the next end mark of a block comment in characters at offset `i`. -/
def endMark : Nat → List Char → Option Nat
  | _, [] => none
  | i, c :: cs => if c = '*' ∧ cs.head? = some '/' then some i else endMark (i + c.utf8Size) cs

/-- The offset behind the block comment that opens at `start`. -/
def commentEnd (text : List Char) (start : Nat) : Except Halt Nat := do
  let rest ← slice text (start + 2) (extent text)
  foundOr .unterminatedComment start ((endMark 0 rest).map fun i => start + 2 + i + 2)

/-- The offset of the quote that closes a string, in characters at offset `i`. -/
def closingQuote (quote : Char) : Nat → List Char → Option Nat
  | _, [] => none
  | i, '\\' :: c :: cs => closingQuote quote (i + 1 + c.utf8Size) cs
  | i, c :: cs =>
    if c = '\n' || c = '\r' then none
    else if c = quote then some i
    else closingQuote quote (i + c.utf8Size) cs

/-- The offset behind the string that opens at `start`. -/
def stringEnd (text : List Char) (start : Nat) (quote : Char) : Except Halt Nat := do
  let rest ← slice text (start + 1) (extent text)
  foundOr .unterminatedString start ((closingQuote quote 0 rest).map fun i => start + 1 + i + 1)

/-- The offset of the slash that closes a regular expression, in characters at offset `i`. -/
def closingSlash (inClass : Bool) : Nat → List Char → Option Nat
  | _, [] => none
  | i, '\\' :: c :: cs => closingSlash inClass (i + 1 + c.utf8Size) cs
  | i, '[' :: cs => closingSlash true (i + 1) cs
  | i, ']' :: cs => closingSlash false (i + 1) cs
  | i, c :: cs =>
    if c = '\n' || c = '\r' then none
    else if c = '/' && !inClass then some i
    else closingSlash inClass (i + c.utf8Size) cs

/-- The offset behind the regular expression that opens at `start`, and behind its flags. -/
def regexEnd (text : List Char) (start : Nat) : Except Halt Nat := do
  let rest ← slice text (start + 1) (extent text)
  let i ← foundOr .unterminatedRegex start (closingSlash false 0 rest)
  scanWhile text (start + 1 + i + 1) isFlag

/-! ## Slices -/

/-- At the offset `i` the rest of the text stands. -/
def Stands (text : List Char) (i : Nat) (rest : List Char) : Prop :=
  ∃ before, text = before ++ rest ∧ extent before = i

theorem eq_nil_of_extent {cs : List Char} (h : extent cs = 0) : cs = [] := by
  cases cs with
  | nil => rfl
  | cons c cs =>
    have hPos := c.utf8Size_pos
    rw [extent_cons] at h
    omega

/-- Of two initial parts of a text the one with fewer bytes is an initial part of the other. -/
theorem prefix_of_extent_le {text xs ys : List Char} (hx : xs <+: text) (hy : ys <+: text)
    (h : extent xs ≤ extent ys) : xs <+: ys := by
  rcases List.prefix_or_prefix_of_prefix hx hy with hShorter | ⟨more, rfl⟩
  · exact hShorter
  · rw [extent_append] at h
    have hNil : more = [] := eq_nil_of_extent (by omega)
    simp [hNil]

theorem takeExtent_isPrefix (n : Nat) (cs : List Char) : takeExtent n cs <+: cs := by
  induction cs generalizing n with
  | nil => exact List.prefix_rfl
  | cons c cs ih =>
    rw [takeExtent]
    split
    · exact List.cons_prefix_cons.mpr ⟨rfl, ih _⟩
    · exact List.nil_prefix

/-- A slice is what stands between two places of the text, and nothing else is one. -/
theorem slice_eq_ok_iff {text part : List Char} {first last : Nat} :
    slice text first last = .ok part ↔
      ∃ rest, Stands text first (part ++ rest) ∧ first + extent part = last := by
  constructor
  · intro h
    rw [slice] at h
    split at h
    · rename_i hBounds
      obtain ⟨hLe, hFirst, hLast⟩ := hBounds
      cases h
      obtain ⟨part, hPart⟩ := prefix_of_extent_le (takeExtent_isPrefix first text)
        (takeExtent_isPrefix last text) (by rwa [hFirst, hLast])
      obtain ⟨rest, hRest⟩ := takeExtent_isPrefix last text
      rw [← hPart, List.drop_left]
      refine ⟨rest, ⟨takeExtent first text, ?_, hFirst⟩, ?_⟩
      · rw [← List.append_assoc, hPart, hRest]
      · calc
          first + extent part = extent (takeExtent first text ++ part) := by
            rw [extent_append, hFirst]
          _ = last := by rw [hPart, hLast]
    · cases h
  · rintro ⟨rest, ⟨before, rfl, rfl⟩, rfl⟩
    have hUpTo := takeExtent_extent_append (before ++ part) rest
    rw [List.append_assoc, extent_append] at hUpTo
    have hBounds := Nat.le_add_right (extent before) (extent part)
    rw [slice, takeExtent_extent_append, hUpTo, extent_append, if_pos ⟨hBounds, rfl, rfl⟩,
      List.drop_left]

namespace Stands

variable {text rest : List Char} {i : Nat} {c : Char}

theorem behind (part : List Char) (h : Stands text i (part ++ rest)) :
    Stands text (i + extent part) rest := by
  obtain ⟨before, rfl, rfl⟩ := h
  exact ⟨before ++ part, (List.append_assoc ..).symm, extent_append before part⟩

theorem next (h : Stands text i (c :: rest)) : Stands text (i + c.utf8Size) rest :=
  h.behind [c]

theorem take (h : Stands text i rest) (n : Nat) :
    Stands text (i + extent (rest.take n)) (rest.drop n) := by
  rw [← List.take_append_drop n rest] at h
  exact h.behind _

theorem stop (h : Stands text i rest) : i + extent rest = extent text := by
  obtain ⟨before, rfl, rfl⟩ := h
  exact (extent_append before rest).symm

theorem slice_part {part : List Char} (h : Stands text i (part ++ rest)) :
    slice text i (i + extent part) = .ok part :=
  slice_eq_ok_iff.mpr ⟨rest, h, rfl⟩

theorem slice_rest (h : Stands text i rest) : slice text i (extent text) = .ok rest :=
  slice_eq_ok_iff.mpr ⟨[], by rwa [List.append_nil], h.stop⟩

theorem peek (h : Stands text i rest) (ahead : Nat) : peek text i ahead = .ok rest[ahead]? := by
  rw [Bytewise.peek, h.slice_rest]
  rfl

end Stands

theorem isValid_iff_stands {text : String} {i : Nat} :
    String.Pos.Raw.IsValid text ⟨i⟩ ↔ ∃ rest, Stands text.toList i rest := by
  rw [String.Pos.Raw.isValid_iff_exists_append]
  constructor
  · rintro ⟨before, rest, rfl, hOffset⟩
    have hSize : i = before.utf8ByteSize := congrArg String.Pos.Raw.byteIdx hOffset
    exact ⟨rest.toList, before.toList, String.toList_append, by rw [hSize, extent_toList]⟩
  · rintro ⟨rest, before, hText, rfl⟩
    refine ⟨String.ofList before, String.ofList rest, ?_, ?_⟩
    · rw [← String.ofList_append, ← hText, String.ofList_toList]
    · have hSize : extent before = (String.ofList before).utf8ByteSize := by
        rw [← extent_toList, String.toList_ofList]
      rw [hSize]
      rfl

/-- A slice of a string is taken exactly between two character boundaries. -/
theorem slice_ok_iff_isValid {text : String} {first last : Nat} :
    (∃ part, slice text.toList first last = .ok part) ↔
      first ≤ last ∧ String.Pos.Raw.IsValid text ⟨first⟩ ∧ String.Pos.Raw.IsValid text ⟨last⟩ := by
  simp only [isValid_iff_stands]
  constructor
  · rintro ⟨part, h⟩
    obtain ⟨rest, hStands, rfl⟩ := slice_eq_ok_iff.mp h
    exact ⟨Nat.le_add_right _ _, ⟨part ++ rest, hStands⟩, rest, hStands.behind part⟩
  · rintro ⟨hLe, ⟨xs, before, hBefore, rfl⟩, rest, upTo, hUpTo, rfl⟩
    obtain ⟨part, rfl⟩ := prefix_of_extent_le (hBefore ▸ List.prefix_append before xs)
      (hUpTo ▸ List.prefix_append upTo rest) hLe
    refine ⟨part, slice_eq_ok_iff.mpr ⟨rest, ⟨before, ?_, rfl⟩, (extent_append before part).symm⟩⟩
    rw [hUpTo, List.append_assoc]

/-! ## Runs -/

theorem take_runLength (p : Char → Bool) (cs : List Char) :
    cs.take (runLength p cs) = cs.takeWhile p :=
  (List.prefix_iff_eq_take.mp (List.takeWhile_prefix p)).symm

theorem find?_charIndices (p : Char → Bool) (i : Nat) (cs : List Char) :
    (charIndices i cs).find? (fun found => !p found.2) =
      (cs.dropWhile p).head?.map fun c => (i + extent (cs.takeWhile p), c) := by
  induction cs generalizing i with
  | nil => rfl
  | cons c cs ih =>
    cases hc : p c with
    | false => simp [charIndices, hc]
    | true => simp [charIndices, hc, ih, Nat.add_assoc]

theorem Stands.scanWhile {text rest : List Char} {i : Nat} (h : Stands text i rest)
    (p : Char → Bool) : scanWhile text i p = .ok (i + extent (rest.takeWhile p)) := by
  rw [Bytewise.scanWhile, h.slice_rest, ok_bind, find?_charIndices, Nat.zero_add]
  have hSplit : rest.takeWhile p ++ rest.dropWhile p = rest := List.takeWhile_append_dropWhile
  cases hBehind : rest.dropWhile p with
  | cons c cs => rfl
  | nil =>
    rw [hBehind, List.append_nil] at hSplit
    rw [hSplit, h.stop]
    rfl

theorem Stands.run {text cs : List Char} {i : Nat} {c : Char} {p : Char → Bool}
    (h : Stands text i (c :: cs)) (hc : p c = true) :
    Bytewise.scanWhile text i p = .ok (i + extent (c :: cs.take (runLength p cs))) := by
  rw [h.scanWhile, take_runLength, List.takeWhile_cons_of_pos hc]

/-! ## Block comments, strings and regular expressions -/

theorem endMark_eq (i : Nat) (cs : List Char) :
    (endMark i cs).map (· + 2) = (scanBlockComment cs).map fun n => i + extent (cs.take n) := by
  induction cs generalizing i with
  | nil => rfl
  | cons c cs ih =>
    rw [endMark, scanBlockComment_cons]
    split
    · rename_i hEnd
      obtain ⟨rfl, hSlash⟩ := hEnd
      obtain ⟨tail, rfl⟩ := List.head?_eq_some_iff.mp hSlash
      rfl
    · rw [ih, Option.map_map]
      simp [Function.comp_def, Nat.add_assoc]

theorem closingQuote_eq (quote : Char) (hQuote : quote.utf8Size = 1) (i : Nat) (cs : List Char) :
    (closingQuote quote i cs).map (· + 1) =
      (scanString quote cs).map fun n => i + extent (cs.take n) := by
  induction cs using scanString.induct quote generalizing i with
  | case1 => rfl
  | case2 c cs ih =>
    rw [closingQuote, scanString, ih, Option.map_map]
    have hSize : '\\'.utf8Size = 1 := rfl
    simp [Function.comp_def, Nat.add_assoc, hSize]
  | case3 c cs hPlain hBreak =>
    rw [closingQuote.eq_3 _ _ _ _ hPlain, scanString.eq_3 _ _ _ hPlain, if_pos hBreak,
      if_pos hBreak]
    rfl
  | case4 cs hPlain hBreak =>
    rw [closingQuote.eq_3 _ _ _ _ hPlain, scanString.eq_3 _ _ _ hPlain, if_neg hBreak,
      if_neg hBreak, if_pos rfl, if_pos rfl]
    simp [hQuote]
  | case5 c cs hPlain hBreak hOther ih =>
    rw [closingQuote.eq_3 _ _ _ _ hPlain, scanString.eq_3 _ _ _ hPlain, if_neg hBreak,
      if_neg hBreak, if_neg hOther, if_neg hOther, ih, Option.map_map]
    simp [Function.comp_def, Nat.add_assoc]

theorem closingSlash_eq (inClass : Bool) (i : Nat) (cs : List Char) :
    (closingSlash inClass i cs).map (· + 1) =
      (scanRegexBody inClass cs).map fun n => i + extent (cs.take n) := by
  induction inClass, cs using scanRegexBody.induct generalizing i with
  | case1 => rfl
  | case2 inClass c cs ih =>
    rw [closingSlash, scanRegexBody, ih, Option.map_map]
    have hSize : '\\'.utf8Size = 1 := rfl
    simp [Function.comp_def, Nat.add_assoc, hSize]
  | case3 inClass cs ih =>
    rw [closingSlash, scanRegexBody, ih, Option.map_map]
    have hSize : '['.utf8Size = 1 := rfl
    simp [Function.comp_def, Nat.add_assoc, hSize]
  | case4 inClass cs ih =>
    rw [closingSlash, scanRegexBody, ih, Option.map_map]
    have hSize : ']'.utf8Size = 1 := rfl
    simp [Function.comp_def, Nat.add_assoc, hSize]
  | case5 inClass c cs hPlain hOpen hClose hBreak =>
    rw [closingSlash.eq_5 _ _ _ _ hPlain hOpen hClose,
      scanRegexBody.eq_5 _ _ _ hPlain hOpen hClose, if_pos hBreak, if_pos hBreak]
    rfl
  | case6 inClass c cs hPlain hOpen hClose hBreak hSlash =>
    rw [closingSlash.eq_5 _ _ _ _ hPlain hOpen hClose,
      scanRegexBody.eq_5 _ _ _ hPlain hOpen hClose, if_neg hBreak, if_neg hBreak, if_pos hSlash,
      if_pos hSlash]
    obtain ⟨rfl, -⟩ : c = '/' ∧ inClass = false := by simpa using hSlash
    rfl
  | case7 inClass c cs hPlain hOpen hClose hBreak hSlash ih =>
    rw [closingSlash.eq_5 _ _ _ _ hPlain hOpen hClose,
      scanRegexBody.eq_5 _ _ _ hPlain hOpen hClose, if_neg hBreak, if_neg hBreak, if_neg hSlash,
      if_neg hSlash, ih, Option.map_map]
    simp [Function.comp_def, Nat.add_assoc]

namespace Stands

variable {text rest : List Char} {i : Nat}

theorem commentEnd (h : Stands text i ('/' :: '*' :: rest)) :
    commentEnd text i = foundOr .unterminatedComment i
      ((scanBlockComment rest).map fun n => i + 2 + extent (rest.take n)) := by
  have hInside : Stands text (i + 2) rest := h.behind ['/', '*']
  have hMark := congrArg (Option.map (i + 2 + ·)) (endMark_eq 0 rest)
  simp only [Option.map_map, Function.comp_def, Nat.zero_add, ← Nat.add_assoc] at hMark
  rw [Bytewise.commentEnd, hInside.slice_rest, ok_bind, hMark]

theorem stringEnd {quote : Char} (h : Stands text i (quote :: rest)) (hQuote : quote.utf8Size = 1) :
    stringEnd text i quote = foundOr .unterminatedString i
      ((scanString quote rest).map fun n => i + 1 + extent (rest.take n)) := by
  have hInside : Stands text (i + 1) rest := hQuote ▸ h.next
  have hMark := congrArg (Option.map (i + 1 + ·)) (closingQuote_eq quote hQuote 0 rest)
  simp only [Option.map_map, Function.comp_def, Nat.zero_add, ← Nat.add_assoc] at hMark
  rw [Bytewise.stringEnd, hInside.slice_rest, ok_bind, hMark]

theorem regexEnd (h : Stands text i ('/' :: rest)) :
    regexEnd text i = foundOr .unterminatedRegex i
      ((scanRegex rest).map fun n => i + 1 + extent (rest.take n)) := by
  have hInside : Stands text (i + 1) rest := h.next
  have hMark := closingSlash_eq false 0 rest
  rw [Bytewise.regexEnd, hInside.slice_rest, ok_bind, scanRegex]
  cases hBody : scanRegexBody false rest with
  | none =>
    rw [hBody, Option.map_none, Option.map_eq_none_iff] at hMark
    rw [hMark]
    rfl
  | some n =>
    rw [hBody, Option.map_some, Nat.zero_add] at hMark
    obtain ⟨j, hj, hStop⟩ := Option.map_eq_some_iff.mp hMark
    have hFlags := hInside.take n
    rw [← hStop] at hFlags
    rw [hj, foundOr, ok_bind, Nat.add_assoc _ j, hFlags.scanWhile, hStop, Option.map_some,
      Option.map_some, foundOr, List.take_add, take_runLength, extent_append, Nat.add_assoc (i + 1)]

end Stands

end RuleScout.Bytewise
