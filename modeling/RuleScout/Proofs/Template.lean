import RuleScout.Source.Template
import RuleScout.Proofs.Fallible
import RuleScout.Proofs.Literal
import RuleScout.Text.Extent

/-!
# Moves of the template machine

The machine that reads template literals moves by one or two characters at a time. A move
depends on what is open innermost, on the character at hand and, for some characters, on the
next one. Whenever a move by one character leaves nothing open it has not looked ahead, and
therefore a template literal ends by itself.
-/

set_option autoImplicit false

namespace RuleScout

namespace Template

open Text

/-- What a move puts in place of the innermost frame, and how many characters it takes. -/
structure Move where
  frames : List Frame
  count : Nat
  deriving DecidableEq, Repr

namespace Frame

/-- The move at the character `c` at offset `i`, with `next` behind it. -/
def move (f : Frame) (i : Nat) (c : Char) (next : Option Char) : Move :=
  match f with
  | .literal _ =>
    if c = '\\' ∧ next.isSome then ⟨[f], 2⟩
    else if c = '\x60' then ⟨[], 1⟩
    else if c = '$' ∧ next = some '{' then ⟨[.code i 0, f], 2⟩
    else ⟨[f], 1⟩
  | .code s depth =>
    if c = '{' then ⟨[.code s (depth + 1)], 1⟩
    else if c = '}' then ⟨if depth = 0 then [] else [.code s (depth - 1)], 1⟩
    else if c = '\x60' then ⟨[.literal i, f], 1⟩
    else if c = '/' ∧ next = some '/' then ⟨[.lineComment, f], 2⟩
    else if c = '/' ∧ next = some '*' then ⟨[.blockComment i, f], 2⟩
    else if c = '"' ∨ c = '\'' then ⟨[.quoted c, f], 1⟩
    else ⟨[f], 1⟩
  | .quoted quote =>
    if c = '\\' ∧ next.isSome then ⟨[f], 2⟩
    else if c = quote then ⟨[], 1⟩
    else ⟨[f], 1⟩
  | .lineComment => if c = '\n' then ⟨[], 1⟩ else ⟨[f], 1⟩
  | .blockComment _ => if c = '*' ∧ next = some '/' then ⟨[], 2⟩ else ⟨[f], 1⟩

end Frame

def resume (m : Move) (below : List Frame) (i : Nat) (text : List Char) : Except LexError Nat :=
  (· + m.count) <$> scan (m.frames ++ below) (i + extent (text.take m.count)) (text.drop m.count)

section Moves

variable (below : List Frame) (i : Nat) (c : Char) (cs : List Char)

theorem head?_isSome_iff : cs.head?.isSome = true ↔ ∃ d tail, cs = d :: tail := by
  cases cs <;> simp

theorem scan_literal (s : Nat) :
    scan (.literal s :: below) i (c :: cs) =
      resume (Frame.move (.literal s) i c cs.head?) below i (c :: cs) := by
  rw [Frame.move]
  split
  · rename_i hEscape
    obtain ⟨rfl, hNext⟩ := hEscape
    obtain ⟨d, tail, rfl⟩ := (head?_isSome_iff cs).mp hNext
    simp [scan, resume, Nat.add_assoc]
    rfl
  · split
    · rename_i hTick
      subst hTick
      simp [scan, resume]
      rfl
    · split
      · rename_i hOpen
        obtain ⟨rfl, hNext⟩ := hOpen
        obtain ⟨tail, rfl⟩ := List.head?_eq_some_iff.mp hNext
        simp [scan, resume]
        rfl
      · rename_i hEscape hTick hOpen
        rw [scan.eq_6 _ _ _ _ _ hTick]
        · simp [resume]
        · rintro d tail rfl rfl
          exact hEscape ⟨rfl, rfl⟩
        · rintro tail rfl rfl
          exact hOpen ⟨rfl, rfl⟩

theorem scan_code (s depth : Nat) :
    scan (.code s depth :: below) i (c :: cs) =
      resume (Frame.move (.code s depth) i c cs.head?) below i (c :: cs) := by
  rw [Frame.move]
  by_cases hBrace : c = '{'
  · subst hBrace
    simp [scan, resume]
    rfl
  by_cases hClose : c = '}'
  · subst hClose
    cases depth with
    | zero => simp [scan, resume]; rfl
    | succ depth => simp [scan, resume]; rfl
  by_cases hTick : c = '\x60'
  · subst hTick
    simp [scan, resume]
    rfl
  by_cases hLine : c = '/' ∧ cs.head? = some '/'
  · obtain ⟨rfl, hNext⟩ := hLine
    obtain ⟨tail, rfl⟩ := List.head?_eq_some_iff.mp hNext
    simp [scan, resume]
    rfl
  by_cases hBlock : c = '/' ∧ cs.head? = some '*'
  · obtain ⟨rfl, hNext⟩ := hBlock
    obtain ⟨tail, rfl⟩ := List.head?_eq_some_iff.mp hNext
    simp [scan, resume]
    rfl
  by_cases hQuote : c = '"' ∨ c = '\''
  · rcases hQuote with rfl | rfl
    · simp [scan, resume]
      rfl
    · simp [scan, resume]
      rfl
  rw [not_or] at hQuote
  rw [scan.eq_15 _ _ _ _ _ _ hBrace hClose hTick hQuote.1 hQuote.2]
  · simp [resume, hBrace, hClose, hTick, hLine, hBlock, hQuote]
  · rintro tail rfl rfl
    exact hLine ⟨rfl, rfl⟩
  · rintro tail rfl rfl
    exact hBlock ⟨rfl, rfl⟩

theorem scan_quoted (quote : Char) :
    scan (.quoted quote :: below) i (c :: cs) =
      resume (Frame.move (.quoted quote) i c cs.head?) below i (c :: cs) := by
  rw [Frame.move]
  split
  · rename_i hEscape
    obtain ⟨rfl, hNext⟩ := hEscape
    obtain ⟨d, tail, rfl⟩ := (head?_isSome_iff cs).mp hNext
    simp [scan, resume, Nat.add_assoc]
    rfl
  · rename_i hEscape
    rw [scan.eq_17]
    · split <;> simp [resume]
    · rintro d tail rfl rfl
      exact hEscape ⟨rfl, rfl⟩

theorem scan_lineComment :
    scan (.lineComment :: below) i (c :: cs) =
      resume (Frame.move .lineComment i c cs.head?) below i (c :: cs) := by
  rw [Frame.move, scan]
  split
  · rename_i hBreak
    subst hBreak
    simp [resume]
    rfl
  · simp [resume]

theorem scan_blockComment (s : Nat) :
    scan (.blockComment s :: below) i (c :: cs) =
      resume (Frame.move (.blockComment s) i c cs.head?) below i (c :: cs) := by
  rw [Frame.move]
  split
  · rename_i hEnd
    obtain ⟨rfl, hNext⟩ := hEnd
    obtain ⟨tail, rfl⟩ := List.head?_eq_some_iff.mp hNext
    simp [scan, resume]
    rfl
  · rename_i hOpen
    rw [scan.eq_20]
    · simp [resume]
    · rintro tail rfl rfl
      exact hOpen ⟨rfl, rfl⟩

theorem scan_cons (f : Frame) :
    scan (f :: below) i (c :: cs) = resume (f.move i c cs.head?) below i (c :: cs) := by
  cases f with
  | literal s => exact scan_literal below i c cs s
  | code s depth => exact scan_code below i c cs s depth
  | quoted quote => exact scan_quoted below i c cs quote
  | lineComment => exact scan_lineComment below i c cs
  | blockComment s => exact scan_blockComment below i c cs s

end Moves

/-! ## Where a template literal ends -/

namespace Frame

variable (f : Frame) (i : Nat) (c : Char) (next : Option Char)

/-- A move by two characters needs the second one. -/
theorem move_count : (f.move i c next).count = 1 ∨
    (f.move i c next).count = 2 ∧ ∃ d, next = some d := by
  rw [← Option.isSome_iff_exists]
  cases f <;> grind [move]

/-- Only quotation marks open a quotation. -/
theorem move_quoted {quote : Char} (h : .quoted quote ∈ (f.move i c next).frames) :
    quote = '"' ∨ quote = '\'' ∨ f = .quoted quote := by
  cases f <;> grind [move]

theorem move_quotes (hf : f ≠ .quoted '\\') :
    .quoted '\\' ∉ (f.move i c next).frames := by
  intro h
  rcases move_quoted f i c next h with hQuote | hQuote | hSame
  · cases hQuote
  · cases hQuote
  · exact hf hSame

/-- A move by one character that closes the innermost frame has not looked ahead. -/
theorem move_of_closing (hf : f ≠ .quoted '\\') (hCount : (f.move i c next).count = 1)
    (hClosing : (f.move i c next).frames = []) (other : Option Char) :
    f.move i c other = f.move i c next := by
  cases f with
  | literal s => grind [move]
  | code s depth =>
    have hc : c = '}' := by grind [move]
    simp [move, hc]
  | quoted quote => grind [move]
  | lineComment => rfl
  | blockComment s => grind [move]

end Frame

theorem scan_ok_pos {f : Frame} {below : List Frame} {i : Nat} {cs : List Char} {n : Nat}
    (h : scan (f :: below) i cs = .ok n) : 0 < n := by
  cases cs with
  | nil => cases h
  | cons c cs =>
    rw [scan_cons, resume, map_eq_ok_iff] at h
    obtain ⟨k, -, rfl⟩ := h
    have hCount := f.move_count i c cs.head?
    omega

theorem scan_endsAt (stack : List Frame) (hStack : .quoted '\\' ∉ stack) (i : Nat)
    (cs : List Char) (n : Nat) (h : scan stack i cs = .ok n) :
    n ≤ cs.length ∧ ∀ rest, scan stack i (cs.take n ++ rest) = .ok n := by
  match stack, cs with
  | [], cs =>
    rw [scan] at h
    cases h
    exact ⟨Nat.zero_le _, fun rest => by rw [scan]⟩
  | f :: below, [] => cases h
  | f :: below, c :: cs =>
    rw [List.mem_cons, not_or] at hStack
    have hf : f ≠ .quoted '\\' := fun hEq => hStack.1 hEq.symm
    have hOpened : .quoted '\\' ∉ (f.move i c cs.head?).frames ++ below := by
      rw [List.mem_append, not_or]
      exact ⟨f.move_quotes i c _ hf, hStack.2⟩
    rw [scan_cons, resume, map_eq_ok_iff] at h
    obtain ⟨k, hk, rfl⟩ := h
    rcases f.move_count i c cs.head? with hOne | ⟨hTwo, d, hNext⟩
    · rw [hOne] at hk ⊢
      obtain ⟨hLe, hAny⟩ := scan_endsAt _ hOpened _ cs k hk
      refine ⟨Nat.succ_le_succ hLe, fun rest => ?_⟩
      -- either the character behind `c` is read as well, or the move has not looked at it
      have hSame : f.move i c (cs.take k ++ rest).head? = f.move i c cs.head? := by
        cases k with
        | zero =>
          apply f.move_of_closing i c cs.head? hf hOne
          cases hFrames : (f.move i c cs.head?).frames with
          | nil => rfl
          | cons g gs =>
            rw [hFrames] at hk
            exact absurd (scan_ok_pos hk) (Nat.lt_irrefl 0)
        | succ k =>
          cases cs with
          | nil => cases hLe
          | cons d cs => rfl
      rw [List.take_succ_cons, List.cons_append, scan_cons, hSame, resume, map_eq_ok_iff, hOne]
      exact ⟨k, hAny rest, rfl⟩
    · obtain ⟨tail, rfl⟩ := List.head?_eq_some_iff.mp hNext
      rw [hTwo] at hk ⊢
      obtain ⟨hLe, hAny⟩ := scan_endsAt _ hOpened _ tail k hk
      refine ⟨Nat.succ_le_succ (Nat.succ_le_succ hLe), fun rest => ?_⟩
      rw [List.take_succ_cons, List.take_succ_cons, List.cons_append, List.cons_append, scan_cons,
        resume, map_eq_ok_iff]
      rw [List.head?_cons] at hTwo ⊢
      rw [hTwo]
      exact ⟨k, hAny rest, rfl⟩
termination_by cs.length

theorem scanLiteral_delimited (start : Nat) :
    Delimited fun cs => (scanLiteral start cs).toOption := by
  intro cs n h
  obtain ⟨hLe, hAny⟩ :=
    scan_endsAt [.literal start] (by simp) (start + 1) cs n (toOption_eq_some_iff.mp h)
  exact ⟨hLe, fun rest => toOption_eq_some_iff.mpr (hAny rest)⟩

theorem scanLiteral_append {start : Nat} {pre : List Char}
    (h : scanLiteral start pre = .ok pre.length) (rest : List Char) :
    scanLiteral start (pre ++ rest) = .ok pre.length :=
  toOption_eq_some_iff.mp ((scanLiteral_delimited start).append (toOption_eq_some_iff.mpr h) rest)

theorem scanLiteral_split {start : Nat} {cs : List Char} {n : Nat}
    (h : scanLiteral start cs = .ok n) :
    ∃ pre rest, cs = pre ++ rest ∧ pre.length = n ∧ scanLiteral start pre = .ok pre.length := by
  obtain ⟨pre, rest, hSplit, hLength, hAlone⟩ :=
    (scanLiteral_delimited start).split (toOption_eq_some_iff.mpr h)
  exact ⟨pre, rest, hSplit, hLength, toOption_eq_some_iff.mp hAlone⟩

end Template

end RuleScout
