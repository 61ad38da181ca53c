import RuleScout.Proofs.ByteSlices
import RuleScout.Proofs.TemplateBytes

/-!
# Template literals by byte offsets

A template literal may be read by two functions that call each other, one for what stands between
the backticks and one for a substitution. They look at single bytes, and an escape takes two of
them, so that the offset may be inside a character, or behind the text. A slice is taken only
where a byte is a slash, and a byte that is an ASCII character is a character of the text. So the
two functions never trap, and they come to the offset where the machine has nothing open any more.
-/

set_option autoImplicit false

namespace RuleScout.Bytewise

open Text Literal Template

/-- The offset of the byte that closes a quotation, or one behind the text. -/
def quoteEnd (text : List Char) (quote : Char) (i : Nat) : Nat :=
  if h : i < (bytes text).length then
    if byteChar (bytes text)[i] = quote then i
    else if byteChar (bytes text)[i] = '\\' then quoteEnd text quote (i + 2)
    else quoteEnd text quote (i + 1)
  else i
termination_by (bytes text).length - i

/-- The offset of the next line feed, or the end of the text. -/
def lineEnd (text : List Char) (i : Nat) : Nat :=
  if h : i < (bytes text).length then
    if byteChar (bytes text)[i] = '\n' then i else lineEnd text (i + 1)
  else i
termination_by (bytes text).length - i

mutual

/-- The offset behind the template literal that opens at `start`, read from `i` on. -/
def templateEnd (text : List Char) (start i : Nat) : Except Halt Nat :=
  if h : i < (bytes text).length then
    let b := byteChar (bytes text)[i]
    let next := (bytes text)[i + 1]?.map byteChar
    if b = '\\' then templateEnd text start (i + 2)
    else if b = '\x60' then .ok (i + 1)
    else if b = '$' ∧ next = some '{' then do
      let ⟨j, _⟩ ← forward i (← substitutionEnd text (i + 2) 1 (i + 2))
      templateEnd text start j
    else templateEnd text start (i + 1)
  else .error (.rejected ⟨.unterminatedTemplate, start⟩)
termination_by (bytes text).length - i

/-- The offset behind the substitution whose first character inside is at `inside`, read from `i`
on, where `depth` braces are open. -/
def substitutionEnd (text : List Char) (inside depth i : Nat) : Except Halt Nat :=
  if h : i < (bytes text).length then
    let b := byteChar (bytes text)[i]
    let next := (bytes text)[i + 1]?.map byteChar
    if b = '{' then substitutionEnd text inside (depth + 1) (i + 1)
    else if b = '}' then do
      let depth ← minus depth 1
      if depth = 0 then return i + 1 else substitutionEnd text inside depth (i + 1)
    else if b = '\x60' then do
      let ⟨j, _⟩ ← forward i (← templateEnd text i (i + 1))
      substitutionEnd text inside depth j
    else if b = '/' ∧ next = some '/' then do
      let ⟨j, _⟩ ← forward i (lineEnd text i)
      substitutionEnd text inside depth j
    else if b = '/' ∧ next = some '*' then do
      let ⟨j, _⟩ ← forward i (← commentEnd text i)
      substitutionEnd text inside depth j
    else if b = '"' ∨ b = '\'' then do
      let ⟨j, _⟩ ← forward i (quoteEnd text b (i + 1) + 1)
      substitutionEnd text inside depth j
    else substitutionEnd text inside depth (i + 1)
  else do
    let start ← minus inside 2
    .error (.rejected ⟨.unterminatedSubstitution, start⟩)
termination_by (bytes text).length - i

end

/-! ## The machine at an offset -/

/-- The offset at which nothing is open any more, if `stack` is open at offset `i`. -/
def endFrom (text : List Char) (stack : List Frame) (i : Nat) : Except LexError Nat :=
  (i + ·) <$> scanBytes stack i ((bytes text).drop i)

section Machine

variable {text : List Char} {i j : Nat} (f : Frame) (stack below : List Frame)

theorem endFrom_nil : endFrom text [] i = .ok i := by
  rw [endFrom, scanBytes]
  rfl

theorem endFrom_end (h : (bytes text).length ≤ i) :
    endFrom text (f :: below) i = .error (unterminated (f :: below)) := by
  rw [endFrom, List.drop_eq_nil_of_le h, scanBytes.eq_2 _ _ (by simp)]
  rfl

theorem endFrom_step (h : i < (bytes text).length) {m : Move}
    (hMove : f.move i (byteChar (bytes text)[i]) ((bytes text)[i + 1]?.map byteChar) = m) :
    endFrom text (f :: below) i = endFrom text (m.frames ++ below) (i + m.count) := by
  subst hMove
  have hCount := f.move_count i (byteChar (bytes text)[i]) ((bytes text)[i + 1]?.map byteChar)
  rw [endFrom, List.drop_eq_getElem_cons h, scanBytes, List.head?_drop, List.drop_drop, endFrom]
  generalize f.move i _ _ = m at hCount ⊢
  have hDrop : i + 1 + (m.count - 1) = i + m.count := by omega
  rw [hDrop]
  cases scanBytes (m.frames ++ below) (i + m.count) ((bytes text).drop (i + m.count)) with
  | error e => rfl
  | ok n =>
    apply congrArg Except.ok
    show i + (n + m.count) = i + m.count + n
    omega

theorem lt_of_endFrom (h : endFrom text (f :: below) i = .ok j) : i < j := by
  by_cases hi : i < (bytes text).length
  · have hCount := f.move_count i (byteChar (bytes text)[i]) ((bytes text)[i + 1]?.map byteChar)
    rw [endFrom_step f below hi rfl, endFrom, map_eq_ok_iff] at h
    obtain ⟨n, -, rfl⟩ := h
    omega
  · rw [endFrom_end f below (Nat.le_of_not_lt hi)] at h
    cases h

end Machine

/-- A frame that is reported when the text ends in it. -/
def Reported : Frame → Prop
  | .literal _ | .code _ _ | .blockComment _ => True
  | .quoted _ | .lineComment => False

section Frames

variable {text : List Char} {f : Frame} {stack : List Frame} {i : Nat} (below : List Frame)

theorem unterminated_append (hStack : stack ≠ []) (hLast : ∀ g ∈ stack.getLast?, Reported g) :
    unterminated (stack ++ below) = unterminated stack := by
  induction stack with
  | nil => exact absurd rfl hStack
  | cons g gs ih =>
    have hBelow (hg : ¬Reported g) : unterminated (gs ++ below) = unterminated gs := by
      cases gs with
      | nil => exact absurd (hLast g rfl) hg
      | cons h hs => exact ih (List.cons_ne_nil h hs) hLast
    cases g with
    | quoted quote => exact hBelow id
    | lineComment => exact hBelow id
    | _ => rfl

theorem reported_move {i : Nat} {c : Char} {next : Option Char} (hf : Reported f) :
    ∀ g ∈ (f.move i c next).frames.getLast?, Reported g := by
  cases f with
  | quoted quote => cases hf
  | lineComment => cases hf
  | _ =>
    rw [Frame.move]
    repeat' split
    all_goals simp [Reported]

/-- What is open further down is read on where everything above it is closed. -/
theorem endFrom_append (stack below : List Frame) (i : Nat)
    (hLast : ∀ g ∈ stack.getLast?, Reported g) :
    endFrom text (stack ++ below) i = endFrom text stack i >>= endFrom text below := by
  -- the frame at the bottom of `stack` stays, or one of its kind, until nothing is left of it
  match stack with
  | [] =>
    rw [endFrom_nil]
    rfl
  | f :: rest =>
    by_cases hi : i < (bytes text).length
    · have hCount := f.move_count i (byteChar (bytes text)[i]) ((bytes text)[i + 1]?.map byteChar)
      rw [List.cons_append, endFrom_step f _ hi rfl, endFrom_step f _ hi rfl, ← List.append_assoc]
      apply endFrom_append
      intro g hg
      cases rest with
      | nil =>
        rw [List.append_nil] at hg
        exact reported_move (hLast f rfl) g hg
      | cons r rs =>
        rw [List.getLast?_append] at hg
        exact hLast g (by simpa using hg)
    · rw [List.cons_append, endFrom_end f _ (Nat.le_of_not_lt hi),
        endFrom_end f _ (Nat.le_of_not_lt hi), ← List.cons_append,
        unterminated_append below (List.cons_ne_nil f rest) hLast]
      rfl
termination_by (bytes text).length - i
decreasing_by omega

theorem endFrom_cons (f : Frame) (hf : Reported f) :
    endFrom text (f :: below) i = endFrom text [f] i >>= endFrom text below := by
  apply endFrom_append [f] below i
  rintro g ⟨⟩
  exact hf

/-- An escape takes two bytes, also where there is only one. -/
theorem endFrom_escape (h : i < (bytes text).length) (hEscape : byteChar (bytes text)[i] = '\\')
    (hMove : ∀ next, f.move i '\\' next = ⟨[f], if next.isSome then 2 else 1⟩) :
    endFrom text (f :: below) i = endFrom text (f :: below) (i + 2) := by
  rw [endFrom_step f below h (hEscape ▸ hMove _)]
  by_cases hNext : i + 1 < (bytes text).length
  · rw [List.getElem?_eq_getElem hNext]
    rfl
  · have hEnd : (bytes text).length ≤ i + 1 := Nat.le_of_not_lt hNext
    rw [List.getElem?_eq_none hEnd, endFrom_end f below (Nat.le_succ_of_le hEnd)]
    exact endFrom_end f below hEnd

/-! ## Line comments and quotations -/

theorem le_lineEnd (text : List Char) (i : Nat) : i ≤ lineEnd text i := by
  fun_induction lineEnd text i with
  | case1 => exact Nat.le_refl _
  | case2 i h hOther ih => exact Nat.le_of_succ_le ih
  | case3 => exact Nat.le_refl _

theorem le_quoteEnd (text : List Char) (quote : Char) (i : Nat) : i ≤ quoteEnd text quote i := by
  fun_induction quoteEnd text quote i with
  | case1 => exact Nat.le_refl _
  | case2 i h hOther hEscape ih => exact Nat.le_of_succ_le (Nat.le_of_succ_le ih)
  | case3 i h hOther hEscape ih => exact Nat.le_of_succ_le ih
  | case4 => exact Nat.le_refl _

/-- The line feed behind a comment is the first character of the code that goes on. -/
theorem endFrom_lineComment (s depth : Nat) :
    endFrom text (.lineComment :: .code s depth :: below) i =
      endFrom text (.code s depth :: below) (lineEnd text i) := by
  fun_induction lineEnd text i with
  | case1 i h hFeed =>
    rw [endFrom_step _ _ h rfl, endFrom_step (.code s depth) _ h rfl, hFeed]
    rfl
  | case2 i h hOther ih =>
    have hMove : Frame.move .lineComment i (byteChar (bytes text)[i])
        ((bytes text)[i + 1]?.map byteChar) = ⟨[.lineComment], 1⟩ := if_neg hOther
    rw [← ih, endFrom_step _ _ h hMove]
    rfl
  | case3 i h =>
    rw [endFrom_end _ _ (Nat.le_of_not_lt h), endFrom_end _ _ (Nat.le_of_not_lt h)]
    rfl

theorem endFrom_quoted {quote : Char} (hQuote : quote ≠ '\\') :
    endFrom text (.quoted quote :: f :: below) i =
      endFrom text (f :: below) (quoteEnd text quote i + 1) := by
  fun_induction quoteEnd text quote i with
  | case1 i h hClose =>
    have hMove : Frame.move (.quoted quote) i (byteChar (bytes text)[i])
        ((bytes text)[i + 1]?.map byteChar) = ⟨[], 1⟩ := by
      rw [Frame.move, hClose, if_neg fun hEscape => hQuote hEscape.1, if_pos rfl]
    rw [endFrom_step _ _ h hMove]
    rfl
  | case2 i h hOther hEscape ih =>
    rw [← ih]
    apply endFrom_escape _ h hEscape
    intro next
    cases next with
    | none => simp [Frame.move, Ne.symm hQuote]
    | some d => simp [Frame.move]
  | case3 i h hOther hEscape ih =>
    have hMove : Frame.move (.quoted quote) i (byteChar (bytes text)[i])
        ((bytes text)[i + 1]?.map byteChar) = ⟨[.quoted quote], 1⟩ := by
      rw [Frame.move, if_neg fun hBoth => hEscape hBoth.1, if_neg hOther]
    rw [← ih, endFrom_step _ _ h hMove]
    rfl
  | case4 i h =>
    rw [endFrom_end _ _ (Nat.le_of_not_lt h),
      endFrom_end _ _ (Nat.le_succ_of_le (Nat.le_of_not_lt h))]
    rfl

end Frames

/-! ## Block comments -/

/-- A byte that is an ASCII character is a character of the text. -/
theorem stands_of_byte {text : List Char} {i : Nat} {c : Char}
    (h : (bytes text)[i]?.map byteChar = some c) (hc : c.toNat < 128) :
    ∃ rest, Stands text i (c :: rest) := by
  induction text generalizing i with
  | nil => cases h
  | cons d ds ih =>
    rw [bytes_cons] at h
    -- the byte is one of the first character, and then the only one, or it is further back
    by_cases hi : i < d.utf8Size
    · have hLength : i < (String.utf8EncodeChar d).length := by
        rwa [String.length_utf8EncodeChar]
      rw [List.getElem?_append_left hLength] at h
      obtain ⟨b, hb, rfl⟩ := Option.map_eq_some_iff.mp h
      by_cases hd : d.toNat < 128
      · obtain ⟨b', hBytes, hChar⟩ := utf8EncodeChar_of_ascii hd
        rw [hBytes] at hb hLength
        obtain rfl : i = 0 := Nat.lt_one_iff.mp hLength
        cases hb
        exact ⟨ds, [], by rw [hChar]; rfl, rfl⟩
      · have hBeyond := utf8EncodeChar_beyond (Nat.le_of_not_lt hd) b (List.mem_of_getElem? hb)
        omega
    · rw [List.getElem?_append_right (by rw [String.length_utf8EncodeChar]; omega),
        String.length_utf8EncodeChar] at h
      obtain ⟨rest, before, rfl, hBefore⟩ := ih h
      exact ⟨rest, d :: before, rfl, by rw [extent_cons]; omega⟩

theorem Stands.unique {text xs ys : List Char} {i : Nat} (hx : Stands text i xs)
    (hy : Stands text i ys) : xs = ys := by
  obtain ⟨before, rfl, rfl⟩ := hx
  obtain ⟨other, hText, hExtent⟩ := hy
  have hSame := takeExtent_extent_append other ys
  rw [hExtent, ← hText, takeExtent_extent_append] at hSame
  rw [hSame] at hText
  exact List.append_cancel_left hText

theorem Stands.drop_bytes {text rest : List Char} {i : Nat} (h : Stands text i rest) :
    (bytes text).drop i = bytes rest := by
  obtain ⟨before, rfl, rfl⟩ := h
  exact drop_bytes_append before rest

/-- From a place between characters the machine reads the same by bytes and by characters. -/
theorem Stands.endFrom {text rest : List Char} {i : Nat} (h : Stands text i rest) (f : Frame)
    (hf : Reported f) :
    endFrom text [f] i = (fun n => i + extent (rest.take n)) <$> scan [f] i rest := by
  have hAscii : ∀ g ∈ [f], g.Ascii := by
    rintro g hg quote rfl
    obtain rfl := List.mem_singleton.mp hg
    cases hf
  rw [Bytewise.endFrom, h.drop_bytes, scanBytes_bytes [f] hAscii]
  cases scan [f] i rest <;> rfl

theorem scan_comment (s i : Nat) (cs : List Char) :
    scan [.blockComment s] i cs =
      match scanBlockComment cs with
      | some n => .ok n
      | none => .error ⟨.unterminatedComment, s⟩ := by
  induction cs generalizing i with
  | nil => rfl
  | cons c cs ih =>
    rw [scan_cons, scanBlockComment_cons, resume, Frame.move]
    split
    · rw [List.append_nil, scan]
      rfl
    · show (· + 1) <$> scan [.blockComment s] (i + extent [c]) cs = _
      rw [ih]
      cases scanBlockComment cs <;> rfl

/-- A comment in a substitution ends where the machine finds its end. -/
theorem commentEnd_eq {text : List Char} {i : Nat} (h : i < (bytes text).length)
    (hSlash : byteChar (bytes text)[i] = '/')
    (hStar : (bytes text)[i + 1]?.map byteChar = some '*') :
    commentEnd text i = (endFrom text [.blockComment i] (i + 2)).mapError .rejected := by
  have hByte : (bytes text)[i]?.map byteChar = some '/' := by
    rw [List.getElem?_eq_getElem h, Option.map_some, hSlash]
  obtain ⟨rest, hRest⟩ := stands_of_byte hByte (by decide)
  obtain ⟨tail, hTail⟩ := stands_of_byte hStar (by decide)
  obtain rfl : rest = '*' :: tail := Stands.unique hRest.next hTail
  have hInside : Stands text (i + 2) tail := hTail.next
  rw [hRest.commentEnd, hInside.endFrom (.blockComment i) trivial, scan_comment]
  cases scanBlockComment tail <;> rfl

/-! ## Templates and substitutions -/

/-- Where something ends behind `i`, the reader goes forward to its end. -/
theorem forward_bind {x : Except LexError Nat} {y : Except Halt Nat} {i : Nat}
    {f : Nat → Except Halt Nat} {g : Nat → Except LexError Nat}
    (hEnd : y = x.mapError .rejected) (hForward : ∀ j, x = .ok j → i < j)
    (hNext : ∀ j, i < j → f j = (g j).mapError .rejected) :
    (do let ⟨j, _⟩ ← forward i (← y); f j) = (x >>= g).mapError .rejected := by
  subst hEnd
  cases x with
  | error e => rfl
  | ok j =>
    have hBehind := hForward j rfl
    have hForward : forward i j = .ok ⟨j, hBehind⟩ := dif_pos hBehind
    show (do let ⟨j, _⟩ ← forward i j; f j) = (g j).mapError .rejected
    rw [hForward]
    exact hNext j hBehind

theorem lineEnd_next {text : List Char} {i : Nat} (h : i < (bytes text).length)
    (hOther : byteChar (bytes text)[i] ≠ '\n') : lineEnd text i = lineEnd text (i + 1) := by
  rw [lineEnd, dif_pos h, if_neg hOther]

theorem lt_lineEnd {text : List Char} {i : Nat} (h : i < (bytes text).length)
    (hOther : byteChar (bytes text)[i] ≠ '\n') : i < lineEnd text i := by
  rw [lineEnd_next h hOther]
  exact le_lineEnd text (i + 1)

/-- The marks of a line comment are no line feeds. -/
theorem endFrom_slashes {text : List Char} {s depth i : Nat} (h : i < (bytes text).length)
    (hSlash : byteChar (bytes text)[i] = '/')
    (hNext : (bytes text)[i + 1]?.map byteChar = some '/') :
    endFrom text [.lineComment, .code s depth] (i + 2) =
      endFrom text [.code s depth] (lineEnd text i) := by
  obtain ⟨b, hb, hSecond⟩ := Option.map_eq_some_iff.mp hNext
  obtain ⟨hInside, rfl⟩ := List.getElem?_eq_some_iff.mp hb
  rw [endFrom_lineComment, lineEnd_next h (by rw [hSlash]; decide),
    lineEnd_next hInside (by rw [hSecond]; decide)]

mutual

/-- The reader of literals comes to where the machine has closed the literal. -/
theorem templateEnd_eq (text : List Char) (start i : Nat) :
    templateEnd text start i = (endFrom text [.literal start] i).mapError .rejected := by
  rw [templateEnd]
  split
  · rename_i h
    dsimp only
    split
    · rename_i hEscape
      rw [endFrom_escape [] h hEscape fun next => by cases next <;> rfl]
      exact templateEnd_eq text start (i + 2)
    rename_i hEscape
    rw [endFrom_step _ _ h rfl, Frame.move]
    simp only [hEscape, false_and, if_false]
    split
    · exact congrArg (Except.mapError Halt.rejected) endFrom_nil.symm
    split
    · show _ = (endFrom text (.code i 0 :: [.literal start]) (i + 2)).mapError Halt.rejected
      rw [endFrom_cons _ (.code i 0) trivial]
      exact forward_bind (substitutionEnd_eq text i 0 (i + 2))
        (fun j hEnd => Nat.lt_of_le_of_lt (Nat.le_add_right i 2) (lt_of_endFrom _ _ hEnd))
        fun j hForward => templateEnd_eq text start j
    · exact templateEnd_eq text start (i + 1)
  · rename_i h
    rw [endFrom_end _ _ (Nat.le_of_not_lt h)]
    rfl
termination_by (bytes text).length - i

/-- The reader of substitutions counts the brace that opens one as well. -/
theorem substitutionEnd_eq (text : List Char) (start depth i : Nat) :
    substitutionEnd text (start + 2) (depth + 1) i =
      (endFrom text [.code start depth] i).mapError .rejected := by
  rw [substitutionEnd]
  split
  · rename_i h
    rw [endFrom_step _ _ h rfl, Frame.move]
    dsimp only
    split
    · exact substitutionEnd_eq text start (depth + 1) (i + 1)
    split
    · cases depth with
      | zero => exact congrArg (Except.mapError Halt.rejected) endFrom_nil.symm
      | succ depth => exact substitutionEnd_eq text start depth (i + 1)
    split
    · show _ = (endFrom text (.literal i :: [.code start depth]) (i + 1)).mapError Halt.rejected
      rw [endFrom_cons _ (.literal i) trivial]
      exact forward_bind (templateEnd_eq text i (i + 1))
        (fun j hEnd => Nat.lt_of_succ_lt (lt_of_endFrom _ _ hEnd))
        fun j hForward => substitutionEnd_eq text start depth j
    split
    · rename_i hLine
      have hBehind : i < lineEnd text i := lt_lineEnd h (by rw [hLine.1]; decide)
      show _ = (endFrom text [.lineComment, .code start depth] (i + 2)).mapError Halt.rejected
      rw [endFrom_slashes h hLine.1 hLine.2]
      exact forward_bind (x := .ok (lineEnd text i)) (y := .ok (lineEnd text i)) rfl
        (by rintro j ⟨⟩; exact hBehind) fun j hForward => substitutionEnd_eq text start depth j
    split
    · rename_i hBlock
      show _ =
        (endFrom text (.blockComment i :: [.code start depth]) (i + 2)).mapError Halt.rejected
      rw [endFrom_cons _ (.blockComment i) trivial]
      exact forward_bind (commentEnd_eq h hBlock.1 hBlock.2)
        (fun j hEnd => Nat.lt_of_le_of_lt (Nat.le_add_right i 2) (lt_of_endFrom _ _ hEnd))
        fun j hForward => substitutionEnd_eq text start depth j
    split
    · rename_i hQuote
      have hEscape : byteChar (bytes text)[i] ≠ '\\' := by
        rcases hQuote with hQuote | hQuote
        · rw [hQuote]; decide
        · rw [hQuote]; decide
      show _ = (endFrom text [.quoted (byteChar (bytes text)[i]), .code start depth]
        (i + 1)).mapError Halt.rejected
      rw [endFrom_quoted _ hEscape]
      exact forward_bind (x := .ok _) (y := .ok _) rfl
        (by rintro j ⟨⟩; exact Nat.lt_succ_of_lt (le_quoteEnd text _ (i + 1)))
        fun j hForward => substitutionEnd_eq text start depth j
    · exact substitutionEnd_eq text start depth (i + 1)
  · rename_i h
    rw [endFrom_end _ _ (Nat.le_of_not_lt h)]
    rfl
termination_by (bytes text).length - i

end

/-- Read by offsets, a template literal ends where it ends when it is read by characters. -/
theorem Stands.templateEnd {text rest : List Char} {i : Nat} (h : Stands text i ('\x60' :: rest)) :
    templateEnd text i (i + 1) =
      ((fun n => i + 1 + extent (rest.take n)) <$> scanLiteral i rest).mapError .rejected := by
  have hInside : Stands text (i + 1) rest := h.next
  rw [templateEnd_eq, hInside.endFrom (.literal i) trivial]
  rfl

end RuleScout.Bytewise
