import RuleScout.Proofs.Template

/-!
# Template literals read byte by byte

A template literal may also be read byte by byte, with every byte taken for the character that
has its code. An escape then takes two bytes, whatever they are, and can end inside a character.
Nothing comes of it: the bytes of a character beyond ASCII are beyond ASCII themselves, and the
machine only looks for ASCII characters. Both ways of reading end at the same place, or fail in
the same way.
-/

set_option autoImplicit false

namespace RuleScout.Template

open Text

/-- The UTF-8 form of a text. -/
def bytes (cs : List Char) : List UInt8 := cs.flatMap String.utf8EncodeChar

def byteChar (b : UInt8) : Char := Char.ofNat b.toNat

/-- The number of bytes after which nothing is open any more. -/
def scanBytes : List Frame → Nat → List UInt8 → Except LexError Nat
  | [], _, _ => .ok 0
  | stack, _, [] => .error (unterminated stack)
  | f :: below, i, b :: bs =>
    let m := f.move i (byteChar b) (bs.head?.map byteChar)
    (· + m.count) <$> scanBytes (m.frames ++ below) (i + m.count) (bs.drop (m.count - 1))
termination_by _ _ bs => bs.length
decreasing_by
  rw [List.length_drop, List.length_cons]
  omega

/-! ## Bytes of characters -/

theorem bytes_cons (c : Char) (cs : List Char) :
    bytes (c :: cs) = String.utf8EncodeChar c ++ bytes cs := by
  rw [bytes, List.flatMap_cons, bytes]

theorem bytes_append (xs ys : List Char) : bytes (xs ++ ys) = bytes xs ++ bytes ys :=
  List.flatMap_append

theorem length_bytes (cs : List Char) : (bytes cs).length = extent cs := by
  induction cs with
  | nil => rfl
  | cons c cs ih => rw [bytes_cons, List.length_append, String.length_utf8EncodeChar, ih, extent_cons]

/-- The bytes of a text behind its first characters are those of the other characters. -/
theorem drop_bytes_append (xs ys : List Char) : (bytes (xs ++ ys)).drop (extent xs) = bytes ys := by
  rw [bytes_append, ← length_bytes, List.drop_left]

theorem toByteArray_toList (s : String) : s.toByteArray.data.toList = bytes s.toList := by
  rw [← String.ofList_toList (s := s), String.toByteArray_ofList, List.utf8Encode,
    List.data_toByteArray, List.toList_toArray, String.toList_ofList]
  rfl

theorem byteChar_toNat (b : UInt8) : (byteChar b).toNat = b.toNat := by
  have hValid : b.toNat.isValidChar := .inl (Nat.lt_trans b.toNat_lt (by decide))
  rw [byteChar, Char.ofNat, dif_pos hValid]
  rfl

theorem utf8EncodeChar_of_ascii {c : Char} (hc : c.toNat < 128) :
    ∃ b, String.utf8EncodeChar c = [b] ∧ byteChar b = c := by
  refine ⟨UInt8.ofNat c.toNat, if_pos (Nat.le_of_lt_succ hc), ?_⟩
  have hByte : (UInt8.ofNat c.toNat).toNat = c.toNat := by
    rw [UInt8.toNat_ofNat', Nat.mod_eq_of_lt (by omega)]
  rw [byteChar, hByte, Char.ofNat_toNat]

theorem utf8EncodeChar_beyond {c : Char} (hc : 128 ≤ c.toNat) :
    ∀ b ∈ String.utf8EncodeChar c, 128 ≤ (byteChar b).toNat := by
  intro b hb
  rw [byteChar_toNat]
  have hLarge : ¬c.val.toNat ≤ 127 := Nat.not_le_of_lt hc
  rw [String.utf8EncodeChar, if_neg hLarge] at hb
  split at hb
  · simp only [List.mem_cons, List.not_mem_nil, or_false] at hb
    rcases hb with rfl | rfl <;> rw [UInt8.toNat_ofNat'] <;> omega
  · split at hb
    · simp only [List.mem_cons, List.not_mem_nil, or_false] at hb
      rcases hb with rfl | rfl | rfl <;> rw [UInt8.toNat_ofNat'] <;> omega
    · simp only [List.mem_cons, List.not_mem_nil, or_false] at hb
      rcases hb with rfl | rfl | rfl | rfl <;> rw [UInt8.toNat_ofNat'] <;> omega

/-! ## Moves and ASCII -/

theorem ne_of_beyond {c d : Char} (hc : 128 ≤ c.toNat) (hd : d.toNat < 128) : c ≠ d := by
  rintro rfl
  omega

namespace Frame

/-- A frame that waits for ASCII characters only. -/
def Ascii (f : Frame) : Prop := ∀ quote, f = .quoted quote → quote.toNat < 128

variable {f : Frame} {i : Nat} {c d : Char} {next other : Option Char}

theorem move_ascii (hf : f.Ascii) : ∀ g ∈ (f.move i c next).frames, g.Ascii := by
  intro g hg quote hQuote
  subst hQuote
  rcases move_quoted f i c next hg with rfl | rfl | hSame
  · decide
  · decide
  · exact hf quote hSame

theorem move_beyond (hf : f.Ascii) (hc : 128 ≤ c.toNat) : f.move i c next = ⟨[f], 1⟩ := by
  have hOther (d : Char) (hd : d.toNat < 128) : c ≠ d := ne_of_beyond hc hd
  cases f with
  | quoted quote =>
    have hQuote : c ≠ quote := hOther quote (hf quote rfl)
    simp [move, hQuote, hOther '\\' (by decide)]
  | literal s => simp (disch := decide) [move, hOther]
  | code s depth => simp (disch := decide) [move, hOther]
  | lineComment => simp (disch := decide) [move, hOther]
  | blockComment s => simp (disch := decide) [move, hOther]

/-- Of the next character a move only asks whether there is one and which ASCII character. -/
theorem move_next (hSome : next.isSome = other.isSome)
    (hAscii : ∀ d : Char, d.toNat < 128 → (next = some d ↔ other = some d)) :
    f.move i c next = f.move i c other := by
  have hBrace := hAscii '{' (by decide)
  have hSlash := hAscii '/' (by decide)
  have hStar := hAscii '*' (by decide)
  cases f <;> simp only [move, hSome, hBrace, hSlash, hStar]

/-- Only an escape takes a character beyond ASCII along. -/
theorem move_two_beyond (hd : 128 ≤ d.toNat) (hTwo : (f.move i c (some d)).count = 2) :
    (f.move i c (some d)).frames = [f] := by
  have hBrace : d ≠ '{' := ne_of_beyond hd (by decide)
  have hSlash : d ≠ '/' := ne_of_beyond hd (by decide)
  have hStar : d ≠ '*' := ne_of_beyond hd (by decide)
  cases f <;> grind [move]

end Frame

theorem map_add_map_add {ε : Type} (m n : Nat) (x : Except ε Nat) :
    (· + m) <$> (· + n) <$> x = (· + (n + m)) <$> x := by
  cases x with
  | error e => rfl
  | ok k => exact congrArg Except.ok (Nat.add_assoc k n m)

theorem scanBytes_beyond {f : Frame} (hf : f.Ascii) (below : List Frame) (i : Nat)
    (bs rest : List UInt8) (hBeyond : ∀ b ∈ bs, 128 ≤ (byteChar b).toNat) :
    scanBytes (f :: below) i (bs ++ rest) =
      (· + bs.length) <$> scanBytes (f :: below) (i + bs.length) rest := by
  induction bs generalizing i with
  | nil => simp
  | cons b bs ih =>
    rw [List.forall_mem_cons] at hBeyond
    rw [List.cons_append, scanBytes]
    simp only [Frame.move_beyond hf hBeyond.1]
    rw [Nat.sub_self, List.drop_zero, List.singleton_append, ih (i + 1) hBeyond.2, map_add_map_add,
      List.length_cons, Nat.add_assoc, Nat.add_comm 1]

/-- The next byte is the next character, or both are beyond ASCII. -/
theorem move_head_bytes (f : Frame) (i : Nat) (c : Char) (cs : List Char) :
    f.move i c ((bytes cs).head?.map byteChar) = f.move i c cs.head? := by
  cases cs with
  | nil => rfl
  | cons d cs =>
    rw [bytes_cons, List.head?_cons]
    by_cases hd : d.toNat < 128
    · obtain ⟨b, hBytes, hChar⟩ := utf8EncodeChar_of_ascii hd
      rw [hBytes, List.singleton_append, List.head?_cons, Option.map_some, hChar]
    · have hBeyond := utf8EncodeChar_beyond (Nat.le_of_not_lt hd)
      obtain ⟨b, bs, hBytes⟩ := List.exists_cons_of_ne_nil String.utf8EncodeChar_ne_nil
      have hFirst := hBeyond b (by rw [hBytes]; exact List.mem_cons_self)
      rw [hBytes, List.cons_append, List.head?_cons, Option.map_some]
      apply Frame.move_next (by simp)
      intro a ha
      have hByte : byteChar b ≠ a := ne_of_beyond hFirst ha
      have hOwn : d ≠ a := ne_of_beyond (Nat.le_of_not_lt hd) ha
      simp [hByte, hOwn]

theorem map_extent_append {ε : Type} (skipped cs : List Char) (x : Except ε Nat) :
    (· + extent skipped) <$> (fun n => extent (cs.take n)) <$> x =
      (fun n => extent ((skipped ++ cs).take n)) <$> (· + skipped.length) <$> x := by
  cases x with
  | error e => rfl
  | ok n =>
    apply congrArg Except.ok
    show extent (cs.take n) + extent skipped = extent ((skipped ++ cs).take (n + skipped.length))
    rw [Nat.add_comm n, List.take_length_add_append, extent_append, Nat.add_comm]

/-- Behind a move by two bytes the machine may be inside a character, and then it goes on to the
end of it. -/
theorem scanBytes_second {f : Frame} (hf : f.Ascii) (frames below : List Frame) (i : Nat) (d : Char)
    (cs : List Char) (hBeyond : 128 ≤ d.toNat → frames = [f]) :
    (· + 2) <$> scanBytes (frames ++ below) (i + 2) ((bytes (d :: cs)).drop 1) =
      (· + (1 + d.utf8Size)) <$> scanBytes (frames ++ below) (i + (1 + d.utf8Size)) (bytes cs) := by
  rw [bytes_cons, ← String.length_utf8EncodeChar d]
  by_cases hd : d.toNat < 128
  · obtain ⟨b, hBytes, -⟩ := utf8EncodeChar_of_ascii hd
    rw [hBytes]
    rfl
  · have hInside := utf8EncodeChar_beyond (Nat.le_of_not_lt hd)
    obtain ⟨b, bs, hBytes⟩ := List.exists_cons_of_ne_nil String.utf8EncodeChar_ne_nil
    rw [hBytes, List.forall_mem_cons] at hInside
    have hSize : i + 2 + bs.length = i + (1 + (bs.length + 1)) := by omega
    have hCount : bs.length + 2 = 1 + (bs.length + 1) := by omega
    have hDrop : (b :: bs ++ bytes cs).drop 1 = bs ++ bytes cs := rfl
    rw [hBytes, hBeyond (Nat.le_of_not_lt hd), hDrop, List.singleton_append,
      scanBytes_beyond hf below _ _ _ hInside.2, map_add_map_add, List.length_cons, hSize, hCount]

/-- Reading bytes comes to the same as reading characters. -/
theorem scanBytes_bytes (stack : List Frame) (hStack : ∀ f ∈ stack, f.Ascii) (i : Nat)
    (cs : List Char) :
    scanBytes stack i (bytes cs) = (fun n => extent (cs.take n)) <$> scan stack i cs := by
  match stack, cs with
  | [], cs =>
    rw [scanBytes, scan]
    rfl
  | f :: below, [] =>
    have hBytes : scanBytes (f :: below) i [] = .error (unterminated (f :: below)) := by
      rw [scanBytes.eq_2 _ _ (by simp)]
    rw [bytes, List.flatMap_nil, hBytes]
    rfl
  | f :: below, c :: cs =>
    rw [List.forall_mem_cons] at hStack
    obtain ⟨hf, hBelow⟩ := hStack
    have hOpened : ∀ g ∈ (f.move i c cs.head?).frames ++ below, g.Ascii := by
      intro g hg
      rcases List.mem_append.mp hg with hg | hg
      · exact Frame.move_ascii hf g hg
      · exact hBelow g hg
    rw [scan_cons, resume]
    by_cases hc : c.toNat < 128
    · obtain ⟨b, hBytes, hChar⟩ := utf8EncodeChar_of_ascii hc
      have hSize : c.utf8Size = 1 := by
        rw [← String.length_utf8EncodeChar, hBytes]
        rfl
      rw [bytes_cons, hBytes, List.singleton_append, scanBytes, hChar, move_head_bytes]
      rcases f.move_count i c cs.head? with hOne | ⟨hTwo, d, hNext⟩
      · have ih := scanBytes_bytes _ hOpened (i + 1) cs
        have hExtent : extent [c] = 1 := by rw [extent_cons, extent_nil, hSize]
        have hMap := map_extent_append [c] cs
          (scan ((f.move i c cs.head?).frames ++ below) (i + 1) cs)
        rw [hExtent] at hMap
        rw [hOne, Nat.sub_self, List.drop_zero, ih, List.take_succ_cons, List.take_zero, hExtent,
          List.drop_succ_cons, List.drop_zero]
        exact hMap
      · obtain ⟨tail, rfl⟩ := List.head?_eq_some_iff.mp hNext
        have ih := scanBytes_bytes _ hOpened (i + (1 + d.utf8Size)) tail
        have hExtent : extent [c, d] = 1 + d.utf8Size := by
          rw [extent_cons, extent_cons, extent_nil, hSize, Nat.add_zero]
        have hMap := map_extent_append [c, d] tail
          (scan ((f.move i c (some d)).frames ++ below) (i + (1 + d.utf8Size)) tail)
        rw [hExtent] at hMap
        rw [List.head?_cons] at hTwo ih ⊢
        have hSecond := scanBytes_second hf (f.move i c (some d)).frames below i d tail
          fun hd => Frame.move_two_beyond hd hTwo
        rw [ih] at hSecond
        rw [hTwo, hSecond, List.take_succ_cons, List.take_succ_cons, List.take_zero, hExtent,
          List.drop_succ_cons, List.drop_succ_cons, List.drop_zero]
        exact hMap
    · have hBeyond := utf8EncodeChar_beyond (Nat.le_of_not_lt hc)
      rw [bytes_cons, scanBytes_beyond hf below i _ _ hBeyond,
        Frame.move_beyond hf (Nat.le_of_not_lt hc), String.length_utf8EncodeChar]
      have ih := scanBytes_bytes (f :: below) (List.forall_mem_cons.mpr ⟨hf, hBelow⟩)
        (i + c.utf8Size) cs
      rw [ih]
      exact map_extent_append [c] cs _
termination_by cs.length

theorem scanBytes_of_scanLiteral {start : Nat} {pre : List Char}
    (h : scanLiteral start pre = .ok pre.length) (rest : List Char) :
    scanBytes [.literal start] (start + 1) (bytes (pre ++ rest)) = .ok (extent pre) := by
  have hStack : ∀ f ∈ [Frame.literal start], f.Ascii := by
    intro f hf quote hQuote
    rw [List.mem_singleton.mp hf] at hQuote
    cases hQuote
  have hScan : scan [.literal start] (start + 1) (pre ++ rest) = .ok pre.length :=
    scanLiteral_append h rest
  rw [scanBytes_bytes _ hStack, hScan]
  show Except.ok (extent ((pre ++ rest).take pre.length)) = .ok (extent pre)
  rw [List.take_left]

end RuleScout.Template
