import RuleScout.Proofs.Template

/-!
# How literals are spelled

The scanners of literals say where a literal ends. Here the literals are the words of a grammar,
one rule a way to go on, so that what holds of all of them is shown by induction on the rules. A
scanner takes the whole of a text exactly if the text is such a word. The words all end with the
mark that closes the literal.
-/

set_option autoImplicit false

namespace RuleScout

theorem getLast?_cons_of_some {α : Type} {a b : α} {l : List α} (h : l.getLast? = some b) :
    (a :: l).getLast? = some b := by
  rw [List.getLast?_cons, h]
  rfl

namespace Literal

/-! ## Strings -/

/-- A string behind its opening quote. -/
inductive StringBody (quote : Char) : List Char → Prop where
  | close : StringBody quote [quote]
  | escape (c : Char) {cs : List Char} (hRest : StringBody quote cs) :
      StringBody quote ('\\' :: c :: cs)
  | plain {c : Char} {cs : List Char} (hEscape : c ≠ '\\') (hBreak : c ≠ '\n' ∧ c ≠ '\r')
      (hQuote : c ≠ quote) (hRest : StringBody quote cs) : StringBody quote (c :: cs)

theorem stringBody_of_scan {quote : Char} {cs : List Char}
    (h : scanString quote cs = some cs.length) : StringBody quote cs := by
  induction cs using scanString.induct quote with
  | case1 => cases h
  | case2 c cs ih => exact .escape c (ih (by simpa [scanString] using h))
  | case3 c cs hPlain hBreak =>
    rw [scanString.eq_3 _ _ _ hPlain, if_pos hBreak] at h
    cases h
  | case4 cs hPlain hBreak =>
    rw [scanString.eq_3 _ _ _ hPlain, if_neg hBreak, if_pos rfl] at h
    cases cs with
    | nil => exact .close
    | cons d cs => simp at h
  | case5 c cs hPlain hBreak hOther ih =>
    rw [scanString.eq_3 _ _ _ hPlain, if_neg hBreak, if_neg hOther] at h
    have hRest : scanString quote cs = some cs.length := by simpa using h
    refine .plain ?_ (by simpa using hBreak) hOther (ih hRest)
    rintro rfl
    cases cs with
    | nil => cases hRest
    | cons d cs => exact hPlain d cs rfl rfl

theorem scanString_eq_length_iff {quote : Char} (hQuote : quote ≠ '\n' ∧ quote ≠ '\r')
    {cs : List Char} : scanString quote cs = some cs.length ↔ StringBody quote cs := by
  refine ⟨stringBody_of_scan, fun h => ?_⟩
  induction h with
  | close => simp [scanString, hQuote]
  | escape c hRest ih => rw [scanString, ih]; rfl
  | plain hEscape hBreak hOther hRest ih =>
    rw [scanString_plain _ hEscape, if_neg (not_or.mpr hBreak), if_neg hOther, ih]
    rfl

theorem StringBody.getLast? {quote : Char} {cs : List Char} (h : StringBody quote cs) :
    cs.getLast? = some quote := by
  induction h with
  | close => rfl
  | escape c hRest ih => exact getLast?_cons_of_some (getLast?_cons_of_some ih)
  | plain hEscape hBreak hQuote hRest ih => exact getLast?_cons_of_some ih

/-! ## Regular expressions -/

/-- The body of a regular expression behind its opening slash. -/
inductive RegexBody : Bool → List Char → Prop where
  | close : RegexBody false ['/']
  | escape {inClass : Bool} (c : Char) {cs : List Char} (hRest : RegexBody inClass cs) :
      RegexBody inClass ('\\' :: c :: cs)
  | enter {inClass : Bool} {cs : List Char} (hRest : RegexBody true cs) :
      RegexBody inClass ('[' :: cs)
  | leave {inClass : Bool} {cs : List Char} (hRest : RegexBody false cs) :
      RegexBody inClass (']' :: cs)
  | plain {inClass : Bool} {c : Char} {cs : List Char} (hEscape : c ≠ '\\')
      (hOpen : c ≠ '[') (hClose : c ≠ ']') (hBreak : c ≠ '\n' ∧ c ≠ '\r')
      (hSlash : ¬(c = '/' ∧ inClass = false)) (hRest : RegexBody inClass cs) :
      RegexBody inClass (c :: cs)

theorem regexBody_of_scan {inClass : Bool} {cs : List Char}
    (h : scanRegexBody inClass cs = some cs.length) : RegexBody inClass cs := by
  induction inClass, cs using scanRegexBody.induct with
  | case1 => cases h
  | case2 inClass c cs ih => exact .escape c (ih (by simpa [scanRegexBody] using h))
  | case3 inClass cs ih => exact .enter (ih (by simpa [scanRegexBody] using h))
  | case4 inClass cs ih => exact .leave (ih (by simpa [scanRegexBody] using h))
  | case5 inClass c cs hPlain hOpen hClose hBreak =>
    rw [scanRegexBody.eq_5 _ _ _ hPlain hOpen hClose, if_pos hBreak] at h
    cases h
  | case6 inClass c cs hPlain hOpen hClose hBreak hSlash =>
    rw [scanRegexBody.eq_5 _ _ _ hPlain hOpen hClose, if_neg hBreak, if_pos hSlash] at h
    obtain ⟨rfl, rfl⟩ : c = '/' ∧ inClass = false := by simpa using hSlash
    cases cs with
    | nil => exact .close
    | cons d cs => simp at h
  | case7 inClass c cs hPlain hOpen hClose hBreak hSlash ih =>
    rw [scanRegexBody.eq_5 _ _ _ hPlain hOpen hClose, if_neg hBreak, if_neg hSlash] at h
    have hRest : scanRegexBody inClass cs = some cs.length := by simpa using h
    refine .plain ?_ hOpen hClose (by simpa using hBreak) (by simpa using hSlash) (ih hRest)
    rintro rfl
    cases cs with
    | nil => cases hRest
    | cons d cs => exact hPlain d cs rfl rfl

theorem scanRegexBody_eq_length_iff {inClass : Bool} {cs : List Char} :
    scanRegexBody inClass cs = some cs.length ↔ RegexBody inClass cs := by
  refine ⟨regexBody_of_scan, fun h => ?_⟩
  induction h with
  | close => rfl
  | escape c hRest ih => rw [scanRegexBody, ih]; rfl
  | enter hRest ih => rw [scanRegexBody, ih]; rfl
  | leave hRest ih => rw [scanRegexBody, ih]; rfl
  | plain hEscape hOpen hClose hBreak hSlash hRest ih =>
    rw [scanRegexBody_plain _ _ hEscape hOpen hClose, if_neg (not_or.mpr hBreak), if_neg hSlash, ih]
    rfl

theorem RegexBody.getLast? {inClass : Bool} {cs : List Char} (h : RegexBody inClass cs) :
    cs.getLast? = some '/' := by
  induction h with
  | close => rfl
  | escape c hRest ih => exact getLast?_cons_of_some (getLast?_cons_of_some ih)
  | enter hRest ih => exact getLast?_cons_of_some ih
  | leave hRest ih => exact getLast?_cons_of_some ih
  | plain hEscape hOpen hClose hBreak hSlash hRest ih => exact getLast?_cons_of_some ih

/-! ## Block comments -/

/-- A block comment behind its opening mark. -/
inductive CommentBody : List Char → Prop where
  | close : CommentBody ['*', '/']
  | plain {c : Char} {cs : List Char} (hOpen : ¬(c = '*' ∧ cs.head? = some '/'))
      (hRest : CommentBody cs) : CommentBody (c :: cs)

theorem scanBlockComment_eq_length_iff {cs : List Char} :
    scanBlockComment cs = some cs.length ↔ CommentBody cs := by
  constructor
  · intro h
    induction cs with
    | nil => cases h
    | cons c cs ih =>
      rw [scanBlockComment_cons] at h
      split at h
      · rename_i hEnd
        obtain ⟨rfl, hSlash⟩ := hEnd
        obtain ⟨tail, rfl⟩ := List.head?_eq_some_iff.mp hSlash
        cases tail with
        | nil => exact .close
        | cons d tail => simp at h
      · rename_i hOpen
        exact .plain hOpen (ih (by simpa using h))
  · intro h
    induction h with
    | close => rfl
    | plain hOpen hRest ih =>
      rw [scanBlockComment_cons, if_neg hOpen, ih]
      rfl

theorem CommentBody.getLast? {cs : List Char} (h : CommentBody cs) : cs.getLast? = some '/' := by
  induction h with
  | close => rfl
  | plain hOpen hRest ih => exact getLast?_cons_of_some ih

end Literal

/-! ## Template literals -/

namespace Template

namespace Frame

/-- The frame without the offset, which only errors tell. -/
def shape : Frame → Frame
  | .literal _ => .literal 0
  | .code _ depth => .code 0 depth
  | .quoted quote => .quoted quote
  | .lineComment => .lineComment
  | .blockComment _ => .blockComment 0

theorem move_shape (f : Frame) (i : Nat) (c : Char) (next : Option Char) :
    (f.shape.move 0 c next).frames = (f.move i c next).frames.map shape ∧
      (f.shape.move 0 c next).count = (f.move i c next).count := by
  cases f <;> grind [move, shape]

end Frame

/-- The text closes all that is open, and nothing is left of it. -/
inductive Spent : List Frame → List Char → Prop where
  | done : Spent [] []
  | move {f : Frame} {below : List Frame} {c : Char} {cs : List Char}
      (hRest : Spent ((f.move 0 c cs.head?).frames ++ below)
        ((c :: cs).drop (f.move 0 c cs.head?).count)) : Spent (f :: below) (c :: cs)

theorem spent_nil_iff {cs : List Char} : Spent [] cs ↔ cs = [] := by
  constructor
  · intro h
    cases h
    rfl
  · rintro rfl
    exact .done

theorem spent_cons_iff {f : Frame} {below : List Frame} {c : Char} {cs : List Char} :
    Spent (f :: below) (c :: cs) ↔
      Spent ((f.move 0 c cs.head?).frames ++ below)
        ((c :: cs).drop (f.move 0 c cs.head?).count) :=
  ⟨fun h => by cases h; assumption, .move⟩

theorem move_count_le (f : Frame) (i : Nat) (c : Char) (cs : List Char) :
    0 < (f.move i c cs.head?).count ∧ (f.move i c cs.head?).count ≤ (c :: cs).length := by
  rcases f.move_count i c cs.head? with hOne | ⟨hTwo, d, hNext⟩
  · rw [hOne, List.length_cons]
    omega
  · obtain ⟨tail, rfl⟩ := List.head?_eq_some_iff.mp hNext
    rw [hTwo, List.length_cons, List.length_cons]
    omega

theorem scan_eq_length_iff (stack : List Frame) (i : Nat) (cs : List Char) :
    scan stack i cs = .ok cs.length ↔ Spent (stack.map Frame.shape) cs := by
  match stack, cs with
  | [], [] => exact ⟨fun _ => .done, fun _ => by rw [scan, List.length_nil]⟩
  | [], c :: cs =>
    constructor
    · intro h
      rw [scan] at h
      cases h
    · intro h
      cases h
  | f :: below, [] =>
    constructor
    · intro h
      cases h
    · intro h
      cases h
  | f :: below, c :: cs =>
    have hCount := move_count_le f i c cs
    -- the machine knows offsets that the grammar does not, but it moves alike without them
    obtain ⟨hFrames, hSame⟩ := f.move_shape i c cs.head?
    have hRest := scan_eq_length_iff ((f.move i c cs.head?).frames ++ below)
      (i + Text.extent ((c :: cs).take (f.move i c cs.head?).count))
      ((c :: cs).drop (f.move i c cs.head?).count)
    rw [List.map_append, ← hFrames, ← hSame] at hRest
    rw [List.map_cons, spent_cons_iff, ← hRest, hSame, scan_cons, resume, map_eq_ok_iff,
      List.length_drop]
    constructor
    · rintro ⟨n, hn, hLength⟩
      rw [hn]
      congr 1
      omega
    · intro h
      refine ⟨_, h, ?_⟩
      omega
termination_by cs.length
decreasing_by
  rw [List.length_drop]
  omega

theorem scanLiteral_eq_length_iff (start : Nat) (cs : List Char) :
    scanLiteral start cs = .ok cs.length ↔ Spent [.literal 0] cs :=
  scan_eq_length_iff [.literal start] (start + 1) cs

/-- The character that a frame is closed with; what closes a block comment ends with it. -/
def Frame.closer : Frame → Char
  | .literal _ => '\x60'
  | .code _ _ => '\x7d'
  | .quoted quote => quote
  | .lineComment => '\n'
  | .blockComment _ => '/'

/-- A move either closes the frame or keeps something open in its place, which is closed alike. -/
theorem Frame.move_closer (f : Frame) (i : Nat) (c : Char) (cs : List Char) :
    ((f.move i c cs.head?).frames = [] ∧
      ((c :: cs).take (f.move i c cs.head?).count).getLast? = some f.closer) ∨
    ∃ g, (f.move i c cs.head?).frames.getLast? = some g ∧ g.closer = f.closer := by
  cases f with
  | literal s =>
    rw [move]
    split
    · exact .inr ⟨_, rfl, rfl⟩
    split
    · rename_i hTick
      exact .inl ⟨rfl, congrArg some hTick⟩
    split
    · exact .inr ⟨_, rfl, rfl⟩
    · exact .inr ⟨_, rfl, rfl⟩
  | code s depth =>
    rw [move]
    split
    · exact .inr ⟨_, rfl, rfl⟩
    split
    · rename_i hBrace
      cases depth with
      | zero => exact .inl ⟨rfl, congrArg some hBrace⟩
      | succ depth => exact .inr ⟨_, rfl, rfl⟩
    split
    · exact .inr ⟨_, rfl, rfl⟩
    split
    · exact .inr ⟨_, rfl, rfl⟩
    split
    · exact .inr ⟨_, rfl, rfl⟩
    split
    · exact .inr ⟨_, rfl, rfl⟩
    · exact .inr ⟨_, rfl, rfl⟩
  | quoted quote =>
    rw [move]
    split
    · exact .inr ⟨_, rfl, rfl⟩
    split
    · rename_i hQuote
      exact .inl ⟨rfl, congrArg some hQuote⟩
    · exact .inr ⟨_, rfl, rfl⟩
  | lineComment =>
    rw [move]
    split
    · rename_i hFeed
      exact .inl ⟨rfl, congrArg some hFeed⟩
    · exact .inr ⟨_, rfl, rfl⟩
  | blockComment s =>
    rw [move]
    split
    · rename_i hClose
      obtain ⟨tail, rfl⟩ := List.head?_eq_some_iff.mp hClose.2
      exact .inl ⟨rfl, rfl⟩
    · exact .inr ⟨_, rfl, rfl⟩

/-- What is open outermost is closed last. -/
theorem Spent.getLast? {stack : List Frame} {cs : List Char} {f : Frame} (h : Spent stack cs)
    (hStack : stack.getLast? = some f) : cs.getLast? = some f.closer := by
  induction h generalizing f with
  | done => cases hStack
  | @move g below c cs hRest ih =>
    have hBehind {e : Frame} (hCloser : e.closer = f.closer)
        (hOpen : ((g.move 0 c cs.head?).frames ++ below).getLast? = some e) :
        (c :: cs).getLast? = some f.closer := by
      rw [← List.take_append_drop (g.move 0 c cs.head?).count (c :: cs), List.getLast?_append,
        ih hOpen, hCloser]
      rfl
    cases below with
    | cons b bs => exact hBehind rfl (by rw [List.getLast?_append]; simpa using hStack)
    | nil =>
      cases hStack
      rcases g.move_closer 0 c cs with ⟨hClosed, hLast⟩ | ⟨e, hOpen, hCloser⟩
      · rw [hClosed, List.nil_append] at hRest
        -- nothing is open any more, so nothing is left
        rw [spent_nil_iff, List.drop_eq_nil_iff] at hRest
        rwa [List.take_of_length_le hRest] at hLast
      · exact hBehind hCloser (by rw [List.append_nil, hOpen])

end Template

end RuleScout
