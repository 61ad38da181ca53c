import RuleScout.Proofs.Recognition
import RuleScout.Proofs.TemplateBytes

/-!
# The grammar of template literals

A template literal holds items, an item may be a substitution, and a substitution holds code in
which braces pair up and templates, comments and quotations are passed over. The machine that reads
template literals has no such structure, only a stack of what is open. It recognises the same
texts: what closes the innermost frame is derivable, and behind it the rest of the stack is closed.
-/

set_option autoImplicit false

namespace RuleScout.Template

open Text Literal
open scoped Computability

inductive Phrase where
  | literal
  | items
  | code
  deriving DecidableEq, Repr

/-- A quotation in code ends at the next quote that is not escaped, on whatever line. -/
def quotation (quote : Char) : Language Char := {[quote]} * piecesExcept [quote] * {[quote]}

/-- The grammar. A comment up to the end of its line leaves the line feed to the code behind it. -/
inductive Derives : Phrase → List Char → Prop where
  | literal {items : List Char} (hItems : Derives .items items) :
      Derives .literal ('\x60' :: (items ++ ['\x60']))
  | noItem : Derives .items []
  | escape (c : Char) {rest : List Char} (hRest : Derives .items rest) :
      Derives .items ('\\' :: c :: rest)
  | substitution {code rest : List Char} (hCode : Derives .code code)
      (hRest : Derives .items rest) : Derives .items ('$' :: '{' :: (code ++ '}' :: rest))
  | plain {c : Char} {rest : List Char} (hMark : c ≠ '\x60' ∧ c ≠ '\\')
      (hOpen : ¬(c = '$' ∧ rest.head? = some '{')) (hRest : Derives .items rest) :
      Derives .items (c :: rest)
  | noCode : Derives .code []
  | braces {code rest : List Char} (hCode : Derives .code code) (hRest : Derives .code rest) :
      Derives .code ('{' :: (code ++ '}' :: rest))
  | nested {template rest : List Char} (hTemplate : Derives .literal template)
      (hRest : Derives .code rest) : Derives .code (template ++ rest)
  | lineComment {body rest : List Char} (hBody : '\n' ∉ body) (hBreak : rest.head? = some '\n')
      (hRest : Derives .code rest) : Derives .code ('/' :: '/' :: (body ++ rest))
  | blockComment {body rest : List Char} (hBody : CommentBody body) (hRest : Derives .code rest) :
      Derives .code ('/' :: '*' :: (body ++ rest))
  | quoted {quote : Char} {quotes rest : List Char} (hQuote : quote = '"' ∨ quote = '\'')
      (hQuotes : quotes ∈ quotation quote) (hRest : Derives .code rest) :
      Derives .code (quotes ++ rest)
  | other {c : Char} {rest : List Char} (hMark : c ∉ ['{', '}', '\x60', '\'', '"'])
      (hComment : ¬(c = '/' ∧ (rest.head? = some '/' ∨ rest.head? = some '*')))
      (hRest : Derives .code rest) : Derives .code (c :: rest)

/-! ## What is derivable is passed over -/

section Passing

variable {f : Frame} {below : List Frame} {c : Char} {cs rest : List Char} {depth : Nat}

theorem spent_lineComment {body : List Char} (hBody : '\n' ∉ body) :
    Spent (.lineComment :: below) (body ++ '\n' :: rest) ↔ Spent below rest := by
  induction body with
  | nil =>
    rw [List.nil_append, spent_cons_iff]
    rfl
  | cons c body ih =>
    rw [List.mem_cons, not_or] at hBody
    rw [List.cons_append, spent_cons_iff, Frame.move, if_neg (Ne.symm hBody.1)]
    exact ih hBody.2

theorem spent_blockComment {body : List Char} (hBody : CommentBody body) :
    Spent (.blockComment 0 :: below) (body ++ rest) ↔ Spent below rest := by
  induction hBody with
  | close =>
    rw [List.cons_append, spent_cons_iff]
    rfl
  | @plain c cs hOpen hRest ih =>
    have hHead : (cs ++ rest).head? = cs.head? := by cases hRest <;> rfl
    rw [List.cons_append, spent_cons_iff, hHead, Frame.move, if_neg hOpen]
    exact ih

theorem spent_quoted {quote : Char} {body : List Char}
    (hQuote : quote ≠ '\\') (hBody : body ∈ piecesExcept [quote] * {[quote]}) :
    Spent (.quoted quote :: below) (body ++ rest) ↔ Spent below rest := by
  refine pieces_mul_induction
    (P := fun body => Spent (.quoted quote :: below) (body ++ rest) ↔ Spent below rest) ?_ ?_ ?_ hBody
  · rintro body rfl
    rw [List.cons_append, spent_cons_iff]
    simp [Frame.move, hQuote]
  · intro c body hRest
    rw [List.cons_append, spent_cons_iff]
    exact hRest
  · intro c hc body hRest
    simp only [List.mem_cons, List.not_mem_nil, or_false, not_or] at hc
    rw [List.cons_append, spent_cons_iff]
    simpa [Frame.move, hc] using hRest

/-- What closes the literal or the code around a phrase still closes it behind the phrase. -/
def Passed : Phrase → List Char → Prop
  | .literal, w => ∃ inner, w = '\x60' :: inner ∧
      ∀ below rest, Spent below rest → Spent (.literal 0 :: below) (inner ++ rest)
  | .items, w => ∀ below rest, Spent (.literal 0 :: below) ('\x60' :: rest) →
      Spent (.literal 0 :: below) (w ++ '\x60' :: rest)
  | .code, w => ∀ depth below rest, Spent (.code 0 depth :: below) ('}' :: rest) →
      Spent (.code 0 depth :: below) (w ++ '}' :: rest)

theorem head?_append_cons {w rest : List Char} {d : Char} (hc : d ≠ c) :
    (w ++ d :: rest).head? = some c ↔ w.head? = some c := by
  cases w with
  | nil => simp [hc]
  | cons a w => rfl

theorem move_plain {next : Option Char} (hMark : c ≠ '\x60' ∧ c ≠ '\\')
    (hOpen : ¬(c = '$' ∧ next = some '{')) :
    (Frame.literal 0).move 0 c next = ⟨[.literal 0], 1⟩ := by
  simp [Frame.move, hMark, hOpen]

theorem move_other {next : Option Char} (hMark : c ∉ ['{', '}', '\x60', '\'', '"'])
    (hComment : ¬(c = '/' ∧ (next = some '/' ∨ next = some '*'))) :
    (Frame.code 0 depth).move 0 c next = ⟨[.code 0 depth], 1⟩ := by
  rw [and_or_left, not_or] at hComment
  simp only [List.mem_cons, List.not_mem_nil, or_false, not_or] at hMark
  simp [Frame.move, hMark, hComment]

theorem passed_of_derives {p : Phrase} {w : List Char} (h : Derives p w) : Passed p w := by
  induction h with
  | @literal items hItems ih =>
    refine ⟨items ++ ['\x60'], rfl, fun below rest hRest => ?_⟩
    rw [List.append_assoc]
    exact ih below rest (.move hRest)
  | noItem => exact fun below rest hRest => hRest
  | escape c hRest ih => exact fun below rest hBehind => .move (ih below rest hBehind)
  | @substitution code items hCode hRest ihCode ihRest =>
    intro below rest hBehind
    have hInside := ihCode 0 (.literal 0 :: below) _ (.move (ihRest below rest hBehind))
    rw [List.cons_append, List.cons_append, List.append_assoc]
    exact .move hInside
  | @plain c items hMark hOpen hRest ih =>
    intro below rest hBehind
    have hNext : ¬(c = '$' ∧ (items ++ '\x60' :: rest).head? = some '{') := by
      rwa [head?_append_cons (by decide)]
    rw [List.cons_append, spent_cons_iff, move_plain hMark hNext]
    exact ih below rest hBehind
  | noCode => exact fun depth below rest hRest => hRest
  | @braces code after hCode hRest ihCode ihRest =>
    intro depth below rest hBehind
    have hInside := ihCode (depth + 1) below _ (.move (ihRest depth below rest hBehind))
    rw [List.cons_append, List.append_assoc]
    exact .move hInside
  | @nested template after hTemplate hRest ihTemplate ihRest =>
    intro depth below rest hBehind
    obtain ⟨inner, rfl, hInner⟩ := ihTemplate
    have hInside := hInner _ _ (ihRest depth below rest hBehind)
    rw [List.append_assoc]
    exact .move hInside
  | @lineComment body after hBody hBreak hRest ih =>
    intro depth below rest hBehind
    obtain ⟨tail, rfl⟩ := List.head?_eq_some_iff.mp hBreak
    -- the machine takes the line feed along with the comment
    have hTail := ih depth below rest hBehind
    rw [List.cons_append, spent_cons_iff, move_other (by decide) (by simp)] at hTail
    have hInside : Spent (.lineComment :: .code 0 depth :: below)
        (body ++ '\n' :: (tail ++ '}' :: rest)) := (spent_lineComment hBody).mpr hTail
    rw [List.cons_append, List.cons_append, List.append_assoc]
    exact .move hInside
  | @blockComment body after hBody hRest ih =>
    intro depth below rest hBehind
    have hInside := (spent_blockComment hBody).mpr (ih depth below rest hBehind)
    rw [List.cons_append, List.cons_append, List.append_assoc]
    exact .move hInside
  | @quoted quote quotes after hQuote hQuotes hRest ih =>
    intro depth below rest hBehind
    rw [quotation, mul_assoc] at hQuotes
    obtain ⟨body, hBody, rfl⟩ := singleton_mul_iff.mp hQuotes
    have hInside := (spent_quoted (quote_ne hQuote) hBody).mpr (ih depth below rest hBehind)
    rw [List.append_assoc, List.cons_append]
    apply Spent.move
    rcases hQuote with rfl | rfl
    · exact hInside
    · exact hInside
  | @other c after hMark hComment hRest ih =>
    intro depth below rest hBehind
    have hNext : ¬(c = '/' ∧ ((after ++ '}' :: rest).head? = some '/' ∨
        (after ++ '}' :: rest).head? = some '*')) := by
      rwa [head?_append_cons (by decide), head?_append_cons (by decide)]
    rw [List.cons_append, spent_cons_iff, move_other hMark hNext]
    exact ih depth below rest hBehind

end Passing

/-! ## What closes a frame is derivable -/

/-- Code up to the closing braces of all that is open in it. -/
inductive ClosesCode : Nat → List Char → Prop where
  | last {code : List Char} (hCode : Derives .code code) : ClosesCode 0 (code ++ ['}'])
  | inner {depth : Nat} {code rest : List Char} (hCode : Derives .code code)
      (hRest : ClosesCode depth rest) : ClosesCode (depth + 1) (code ++ '}' :: rest)

/-- What is read until a frame is closed, with all that is opened and closed in between. -/
def Frame.ClosedBy : Frame → List Char → Prop
  | .literal _, w => ∃ items, Derives .items items ∧ w = items ++ ['\x60']
  | .code _ depth, w => ClosesCode depth w
  | .quoted quote, w => w ∈ piecesExcept [quote] * {[quote]}
  | .lineComment, w => ∃ body, '\n' ∉ body ∧ w = body ++ ['\n']
  | .blockComment _, w => CommentBody w

/-- A text that closes the frames of a stack, one after the other. -/
inductive Closed : List Frame → List Char → Prop where
  | nil : Closed [] []
  | cons {f : Frame} {below : List Frame} {w rest : List Char} (hFrame : f.ClosedBy w)
      (hRest : Closed below rest) : Closed (f :: below) (w ++ rest)

section Closing

variable {f : Frame} {below : List Frame} {c : Char} {cs w rest : List Char} {s depth : Nat}

theorem closed_cons_iff :
    Closed (f :: below) cs ↔ ∃ w rest, cs = w ++ rest ∧ f.ClosedBy w ∧ Closed below rest := by
  constructor
  · rintro (_ | ⟨hFrame, hRest⟩)
    exact ⟨_, _, rfl, hFrame, hRest⟩
  · rintro ⟨w, rest, rfl, hFrame, hRest⟩
    exact .cons hFrame hRest

/-- The code in front of the first brace may be exchanged. -/
theorem ClosesCode.exists_code (h : ClosesCode depth w) :
    ∃ code rest, Derives .code code ∧ w = code ++ '}' :: rest ∧
      ∀ other, Derives .code other → ClosesCode depth (other ++ '}' :: rest) := by
  cases h with
  | last hCode => exact ⟨_, [], hCode, rfl, fun other hOther => .last hOther⟩
  | inner hCode hRest => exact ⟨_, _, hCode, rfl, fun other hOther => .inner hOther hRest⟩

/-- What may stand in front of code may stand in front of what closes it. -/
theorem ClosesCode.extend {front : List Char} (h : ClosesCode depth w)
    (hFront : ∀ code rest, w = code ++ '}' :: rest → Derives .code code →
      Derives .code (front ++ code)) : ClosesCode depth (front ++ w) := by
  obtain ⟨code, rest, hCode, rfl, hOther⟩ := h.exists_code
  rw [← List.append_assoc]
  exact hOther _ (hFront code rest rfl hCode)

theorem Closed.extend {g : Frame} (front : List Char) (h : Closed (g :: below) cs)
    (hFront : ∀ w rest, cs = w ++ rest → g.ClosedBy w → f.ClosedBy (front ++ w)) :
    Closed (f :: below) (front ++ cs) := by
  obtain ⟨w, rest, rfl, hFrame, hRest⟩ := closed_cons_iff.mp h
  rw [← List.append_assoc]
  exact .cons (hFront w rest rfl hFrame) hRest

/-- A frame that is opened and closed inside another one. -/
theorem Closed.extend_opened {g : Frame} (front : List Char) (h : Closed (g :: f :: below) cs)
    (hFront : ∀ v w, g.ClosedBy v → f.ClosedBy w → f.ClosedBy (front ++ (v ++ w))) :
    Closed (f :: below) (front ++ cs) := by
  obtain ⟨v, behind, rfl, hInner, hBehind⟩ := closed_cons_iff.mp h
  obtain ⟨w, rest, rfl, hFrame, hRest⟩ := closed_cons_iff.mp hBehind
  rw [← List.append_assoc v, ← List.append_assoc front]
  exact .cons (hFront v w hInner hFrame) hRest

theorem Closed.extend_code {g : Frame} (front : List Char)
    (h : Closed (g :: .code s depth :: below) cs)
    (hFront : ∀ v code, g.ClosedBy v → Derives .code code → Derives .code (front ++ (v ++ code))) :
    Closed (.code s depth :: below) (front ++ cs) := by
  refine h.extend_opened front fun v w hInner hCode => ?_
  rw [← List.append_assoc]
  apply ClosesCode.extend hCode
  intro code _ _ hAfter
  rw [List.append_assoc]
  exact hFront v code hInner hAfter

theorem closed_literal (h : Closed (((Frame.literal s).move 0 c cs.head?).frames ++ below)
    ((c :: cs).drop ((Frame.literal s).move 0 c cs.head?).count)) :
    Closed (.literal s :: below) (c :: cs) := by
  rw [Frame.move] at h
  split at h
  · rename_i hEscape
    obtain ⟨rfl, hNext⟩ := hEscape
    obtain ⟨d, tail, rfl⟩ := (head?_isSome_iff cs).mp hNext
    refine h.extend ['\\', d] ?_
    rintro _ rest - ⟨items, hItems, rfl⟩
    exact ⟨_, .escape d hItems, rfl⟩
  split at h
  · rename_i hTick
    subst hTick
    exact .cons (w := ['\x60']) ⟨[], .noItem, rfl⟩ h
  split at h
  · rename_i hOpen
    obtain ⟨rfl, hNext⟩ := hOpen
    obtain ⟨tail, rfl⟩ := List.head?_eq_some_iff.mp hNext
    refine Closed.extend_opened ['$', '{'] h ?_
    rintro _ _ (⟨hCode⟩ | _) ⟨items, hItems, rfl⟩
    refine ⟨_, .substitution hCode hItems, ?_⟩
    simp
  · rename_i hEscape hTick hOpen
    have hPlain : c ≠ '\\' := by
      rintro rfl
      cases cs with
      | nil =>
        obtain ⟨_, rest, hNil, ⟨items, -, rfl⟩, -⟩ := closed_cons_iff.mp h
        simp at hNil
      | cons d cs => exact hEscape ⟨rfl, rfl⟩
    refine h.extend [c] ?_
    rintro _ rest rfl ⟨items, hItems, rfl⟩
    refine ⟨_, .plain ⟨hTick, hPlain⟩ ?_ hItems, rfl⟩
    rwa [List.append_assoc, List.singleton_append, head?_append_cons (by decide)] at hOpen

theorem closed_code (h : Closed (((Frame.code s depth).move 0 c cs.head?).frames ++ below)
    ((c :: cs).drop ((Frame.code s depth).move 0 c cs.head?).count)) :
    Closed (.code s depth :: below) (c :: cs) := by
  rw [Frame.move] at h
  split at h
  · rename_i hOpen
    subst hOpen
    refine h.extend ['{'] ?_
    intro w rest _ hCloses
    cases hCloses with
    | @inner _ code behind hCode hRest =>
      have hBraces : ClosesCode depth ('{' :: (code ++ ['}']) ++ behind) := by
        apply hRest.extend
        intro after _ _ hAfter
        simpa using Derives.braces hCode hAfter
      simpa [Frame.ClosedBy] using hBraces
  split at h
  · rename_i hOpen hClose
    subst hClose
    cases depth with
    | zero => exact .cons (w := ['}']) (.last .noCode) h
    | succ depth => exact h.extend ['}'] fun w rest _ hRest => .inner .noCode hRest
  split at h
  · rename_i hOpen hClose hTick
    subst hTick
    refine Closed.extend_code ['\x60'] h ?_
    rintro _ code ⟨items, hItems, rfl⟩ hAfter
    simpa using Derives.nested (.literal hItems) hAfter
  split at h
  · rename_i hLine
    obtain ⟨rfl, hNext⟩ := hLine
    obtain ⟨tail, rfl⟩ := List.head?_eq_some_iff.mp hNext
    refine Closed.extend_code ['/', '/'] h ?_
    rintro _ code ⟨body, hBody, rfl⟩ hAfter
    have hBehind : Derives .code ('\n' :: code) := .other (by decide) (by simp) hAfter
    simpa using Derives.lineComment hBody rfl hBehind
  split at h
  · rename_i hBlock
    obtain ⟨rfl, hNext⟩ := hBlock
    obtain ⟨tail, rfl⟩ := List.head?_eq_some_iff.mp hNext
    refine Closed.extend_code ['/', '*'] h fun body code hBody hAfter => ?_
    simpa using Derives.blockComment hBody hAfter
  split at h
  · rename_i hQuote
    refine Closed.extend_code [c] h fun body code hBody hAfter => ?_
    have hQuotes : c :: body ∈ quotation c := by
      rw [quotation, mul_assoc, cons_mem_singleton_mul_iff]
      exact hBody
    simpa using Derives.quoted hQuote hQuotes hAfter
  · rename_i hOpen hClose hTick hLine hBlock hQuote
    refine h.extend [c] ?_
    rintro w rest rfl hCode
    refine ClosesCode.extend hCode ?_
    rintro code behind rfl hAfter
    rw [List.append_assoc, List.cons_append, head?_append_cons (by decide)] at hLine hBlock
    rw [not_or] at hQuote
    refine .other (by simp [hOpen, hClose, hTick, hQuote]) ?_ hAfter
    rw [and_or_left, not_or]
    exact ⟨hLine, hBlock⟩

theorem closed_quoted {quote : Char} (hQuote : quote ≠ '\\')
    (h : Closed (((Frame.quoted quote).move 0 c cs.head?).frames ++ below)
      ((c :: cs).drop ((Frame.quoted quote).move 0 c cs.head?).count)) :
    Closed (.quoted quote :: below) (c :: cs) := by
  rw [Frame.move] at h
  split at h
  · rename_i hEscape
    obtain ⟨rfl, hNext⟩ := hEscape
    obtain ⟨d, tail, rfl⟩ := (head?_isSome_iff cs).mp hNext
    exact h.extend ['\\', d] fun w rest _ hBody => escape_mem_pieces_mul hBody
  split at h
  · rename_i hEnd
    subst hEnd
    exact .cons (w := [c]) (mem_kstar_mul_of_mem rfl) h
  · rename_i hEscape hEnd
    have hPlain : c ≠ '\\' := by
      rintro rfl
      cases cs with
      | nil =>
        obtain ⟨w, rest, hNil, hBody, -⟩ := closed_cons_iff.mp h
        rw [(List.append_eq_nil_iff.mp hNil.symm).1] at hBody
        obtain ⟨u, -, v, rfl, hEmpty⟩ := Language.mem_mul.mp hBody
        simp at hEmpty
      | cons d cs => exact hEscape ⟨rfl, rfl⟩
    exact h.extend [c] fun w rest _ hBody => cons_mem_pieces_mul (by simp [hPlain, hEnd]) hBody

theorem closed_lineComment (h : Closed ((Frame.lineComment.move 0 c cs.head?).frames ++ below)
    ((c :: cs).drop (Frame.lineComment.move 0 c cs.head?).count)) :
    Closed (.lineComment :: below) (c :: cs) := by
  rw [Frame.move] at h
  split at h
  · rename_i hFeed
    subst hFeed
    exact .cons (w := ['\n']) ⟨[], by simp, rfl⟩ h
  · rename_i hFeed
    refine h.extend [c] ?_
    rintro _ rest - ⟨body, hBody, rfl⟩
    exact ⟨c :: body, by simp [Ne.symm hFeed, hBody], rfl⟩

theorem closed_blockComment (h : Closed (((Frame.blockComment s).move 0 c cs.head?).frames ++ below)
    ((c :: cs).drop ((Frame.blockComment s).move 0 c cs.head?).count)) :
    Closed (.blockComment s :: below) (c :: cs) := by
  rw [Frame.move] at h
  split at h
  · rename_i hEnd
    obtain ⟨rfl, hNext⟩ := hEnd
    obtain ⟨tail, rfl⟩ := List.head?_eq_some_iff.mp hNext
    exact .cons (w := ['*', '/']) .close h
  · rename_i hOpen
    refine h.extend [c] ?_
    rintro w rest rfl hBody
    have hHead : (w ++ rest).head? = w.head? := by cases hBody <;> rfl
    rw [hHead] at hOpen
    exact .plain hOpen hBody

end Closing

/-- Quotations are only opened by the two quotes, so an escape is never taken for their end. -/
theorem closed_of_spent {stack : List Frame} {cs : List Char} (h : Spent stack cs)
    (hStack : .quoted '\\' ∉ stack) : Closed stack cs := by
  induction h with
  | done => exact .nil
  | @move f below c cs hRest ih =>
    rw [List.mem_cons, not_or] at hStack
    have hFrame : f ≠ .quoted '\\' := Ne.symm hStack.1
    have hMoved : Closed ((f.move 0 c cs.head?).frames ++ below)
        ((c :: cs).drop (f.move 0 c cs.head?).count) := by
      apply ih
      rw [List.mem_append, not_or]
      exact ⟨f.move_quotes 0 c _ hFrame, hStack.2⟩
    cases f with
    | literal s => exact closed_literal hMoved
    | code s depth => exact closed_code hMoved
    | quoted quote => exact closed_quoted (fun hQuote => hFrame (by rw [hQuote])) hMoved
    | lineComment => exact closed_lineComment hMoved
    | blockComment s => exact closed_blockComment hMoved

/-! ## The scanner -/

theorem spent_iff_derives {cs : List Char} :
    Spent [.literal 0] cs ↔ Derives .literal ('\x60' :: cs) := by
  constructor
  · intro h
    obtain ⟨_, rest, rfl, ⟨items, hItems, rfl⟩, hRest⟩ :=
      closed_cons_iff.mp (closed_of_spent h (by simp))
    cases hRest
    rw [List.append_nil]
    exact .literal hItems
  · intro h
    obtain ⟨inner, hSame, hPassed⟩ := passed_of_derives h
    cases hSame
    rw [← List.append_nil cs]
    exact hPassed [] [] .done

theorem scanLiteral_recognises (start : Nat) :
    Recognises (fun cs => (scanLiteral start cs).toOption) '\x60'
      fun slice _ => Derives .literal slice := by
  show Recognises _ _ fun slice _ => slice ∈ ({w | Derives .literal w} : Language Char)
  apply (scanLiteral_delimited start).recognises
  · intro h
    obtain ⟨inner, hNil, -⟩ := passed_of_derives h
    cases hNil
  · intro cs
    rw [toOption_eq_some_iff, scanLiteral_eq_length_iff]
    exact spent_iff_derives

/-- The machine recognises the template literals of the grammar, wherever they start. Read byte by
byte, it ends at the same offset. -/
theorem templates_recognised (start : Nat) :
    Recognises (fun cs => (scanLiteral start cs).toOption) '\x60'
      (fun slice _ => Derives .literal slice) ∧
    ∀ cs stop, scanBytes [.literal start] (start + 1) (bytes cs) = .ok stop ↔
      ∃ slice rest, '\x60' :: cs = slice ++ rest ∧ Derives .literal slice ∧
        stop + 1 = extent slice := by
  have hRecognises := scanLiteral_recognises start
  refine ⟨hRecognises, fun cs stop => ?_⟩
  have hStack : ∀ f ∈ [Frame.literal start], f.Ascii := by simp [Frame.Ascii]
  have hEnds := hRecognises.ends [] cs (stop + 1)
  simp only [List.nil_append] at hEnds
  rw [scanBytes_bytes _ hStack, map_eq_ok_iff, ← hEnds, Option.map_eq_some_iff]
  refine exists_congr fun n => and_congr toOption_eq_some_iff.symm ?_
  have hTick : '\x60'.utf8Size = 1 := rfl
  rw [extent_cons, hTick]
  omega

end RuleScout.Template
