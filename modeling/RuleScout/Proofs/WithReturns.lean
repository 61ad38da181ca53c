import RuleScout.Proofs.Positions

/-!
# Carriage returns before line feeds

`withReturns` gives a text the other common line terminator. Here is what literals make of it:
block comments and template literals end where they ended, while a string or a regular expression
cannot hold such a terminator at all, because a backslash takes the carriage return and leaves the
line feed behind it bare.
-/

set_option autoImplicit false

namespace RuleScout

namespace Text

/-- The text with a carriage return put before every line feed. -/
def withReturns (cs : List Char) : List Char :=
  cs.flatMap fun c => if c = '\n' then ['\r', '\n'] else [c]

@[simp] theorem withReturns_nil : withReturns [] = [] := rfl

@[simp] theorem withReturns_feed (cs : List Char) :
    withReturns ('\n' :: cs) = '\r' :: '\n' :: withReturns cs := rfl

theorem withReturns_cons {c : Char} (hc : c ≠ '\n') (cs : List Char) :
    withReturns (c :: cs) = c :: withReturns cs := by
  rw [withReturns, List.flatMap_cons, if_neg hc]
  rfl

@[simp] theorem withReturns_append (xs ys : List Char) :
    withReturns (xs ++ ys) = withReturns xs ++ withReturns ys := List.flatMap_append

theorem withReturns_eq_self {cs : List Char} (h : '\n' ∉ cs) : withReturns cs = cs := by
  induction cs with
  | nil => rfl
  | cons c cs ih =>
    rw [List.mem_cons, not_or] at h
    rw [withReturns_cons (Ne.symm h.1), ih h.2]

theorem withReturns_eq_nil_iff {cs : List Char} : withReturns cs = [] ↔ cs = [] := by
  constructor
  · intro h
    cases cs with
    | nil => rfl
    | cons c cs =>
      by_cases hc : c = '\n'
      · subst hc
        cases h
      · rw [withReturns_cons hc] at h
        cases h
  · rintro rfl
    rfl

theorem withReturns_eq_cons {cs xs : List Char} {x : Char} (h : withReturns cs = x :: xs) :
    (∃ tail, cs = '\n' :: tail ∧ x = '\r' ∧ xs = '\n' :: withReturns tail) ∨
      ∃ tail, cs = x :: tail ∧ x ≠ '\n' ∧ xs = withReturns tail := by
  cases cs with
  | nil => cases h
  | cons c cs =>
    by_cases hc : c = '\n'
    · subst hc
      cases h
      exact .inl ⟨cs, rfl, rfl, rfl⟩
    · rw [withReturns_cons hc] at h
      cases h
      exact .inr ⟨cs, rfl, hc, rfl⟩

theorem withReturns_head? {cs : List Char} {d : Char} (hFeed : d ≠ '\n') (hReturn : d ≠ '\r') :
    (withReturns cs).head? = some d ↔ cs.head? = some d := by
  cases cs with
  | nil => rfl
  | cons c cs =>
    by_cases hc : c = '\n'
    · subst hc
      simp [Ne.symm hFeed, Ne.symm hReturn]
    · rw [withReturns_cons hc, List.head?_cons, List.head?_cons]

theorem count_withReturns (cs : List Char) : (withReturns cs).count '\n' = cs.count '\n' := by
  induction cs with
  | nil => rfl
  | cons c cs ih =>
    by_cases hc : c = '\n'
    · subst hc
      simp [ih]
    · rw [withReturns_cons hc, List.count_cons, List.count_cons, ih]

theorem getLast?_withReturns (cs : List Char) :
    (withReturns cs).getLast? = some '\n' ↔ cs.getLast? = some '\n' := by
  rcases List.eq_nil_or_concat cs with rfl | ⟨tail, c, rfl⟩
  · rfl
  · rw [List.concat_eq_append, withReturns_append, List.getLast?_concat]
    by_cases hc : c = '\n'
    · subst hc
      simp
    · rw [withReturns_cons hc, withReturns_nil, List.getLast?_concat]

/-- A text with returns can be cut anywhere but between a return and its line feed. -/
theorem withReturns_split {cs xs ys : List Char} (h : withReturns cs = xs ++ ys)
    (hWhole : xs.getLast? = some '\r' → ys.head? ≠ some '\n') :
    ∃ us vs, cs = us ++ vs ∧ xs = withReturns us ∧ ys = withReturns vs := by
  match xs with
  | [] => exact ⟨[], cs, rfl, rfl, h.symm⟩
  | x :: xs =>
    rcases withReturns_eq_cons h with ⟨tail, rfl, rfl, hRest⟩ | ⟨tail, rfl, hx, hRest⟩
    · match xs with
      | [] =>
        have hFeed : ys.head? = some '\n' := congrArg List.head? hRest
        exact absurd hFeed (hWhole rfl)
      | y :: xs =>
        obtain ⟨rfl, hTail⟩ := List.cons.inj hRest
        obtain ⟨us, vs, rfl, rfl, rfl⟩ := withReturns_split hTail.symm fun hLast =>
          hWhole (getLast?_cons_of_some (getLast?_cons_of_some hLast))
        exact ⟨'\n' :: us, vs, rfl, rfl, rfl⟩
    · obtain ⟨us, vs, rfl, rfl, rfl⟩ := withReturns_split hRest.symm fun hLast =>
        hWhole (getLast?_cons_of_some hLast)
      exact ⟨x :: us, vs, rfl, (withReturns_cons hx us).symm, rfl⟩

theorem terminator_infix_withReturns {cs : List Char} (h : '\n' ∈ cs) :
    ['\r', '\n'] <:+: withReturns cs := by
  obtain ⟨us, vs, rfl⟩ := List.append_of_mem h
  refine ⟨withReturns us, withReturns vs, ?_⟩
  rw [withReturns_append, withReturns_feed, List.append_assoc]
  rfl

theorem terminator_infix_cons {c : Char} {cs : List Char} (hc : c ≠ '\r')
    (h : ['\r', '\n'] <:+: c :: cs) : ['\r', '\n'] <:+: cs := by
  rcases List.infix_cons_iff.mp h with hPrefix | hInside
  · exact absurd (List.cons_prefix_cons.mp hPrefix).1.symm hc
  · exact hInside

end Text

open Text

/-! ## Strings and regular expressions -/

namespace Literal

/-- A backslash may take a carriage return, but the line feed behind it is then bare. -/
theorem terminator_of_escaped {c : Char} {cs : List Char} (h : ['\r', '\n'] <:+: '\\' :: c :: cs) :
    cs.head? = some '\n' ∨ ['\r', '\n'] <:+: cs := by
  rcases List.infix_cons_iff.mp (terminator_infix_cons (by decide) h) with hPrefix | hInside
  · obtain ⟨tail, rfl⟩ := (List.cons_prefix_cons.mp hPrefix).2
    exact .inl rfl
  · exact .inr hInside

theorem StringBody.head?_ne {quote : Char} (hQuote : quote ≠ '\n') {cs : List Char}
    (h : StringBody quote cs) : cs.head? ≠ some '\n' := by
  rintro hHead
  obtain ⟨tail, rfl⟩ := List.head?_eq_some_iff.mp hHead
  cases h with
  | close => exact hQuote rfl
  | plain hEscape hBreak hOther hRest => exact hBreak.1 rfl

theorem StringBody.not_terminator {quote : Char} (hQuote : quote = '"' ∨ quote = '\'')
    {cs : List Char} (h : StringBody quote cs) : ¬['\r', '\n'] <:+: cs := by
  induction h with
  | close =>
    intro hInside
    have hLength := hInside.length_le
    simp at hLength
  | escape c hRest ih =>
    intro hInside
    rcases terminator_of_escaped hInside with hHead | hInside
    · exact hRest.head?_ne (by rcases hQuote with rfl | rfl <;> decide) hHead
    · exact ih hInside
  | plain hEscape hBreak hOther hRest ih =>
    exact fun hInside => ih (terminator_infix_cons hBreak.2 hInside)

theorem RegexBody.head?_ne {inClass : Bool} {cs : List Char} (h : RegexBody inClass cs) :
    cs.head? ≠ some '\n' := by
  rintro hHead
  obtain ⟨tail, rfl⟩ := List.head?_eq_some_iff.mp hHead
  cases h with
  | plain hEscape hOpen hClose hBreak hSlash hRest => exact hBreak.1 rfl

theorem RegexBody.not_terminator {inClass : Bool} {cs : List Char} (h : RegexBody inClass cs) :
    ¬['\r', '\n'] <:+: cs := by
  induction h with
  | close =>
    intro hInside
    have hLength := hInside.length_le
    simp at hLength
  | escape c hRest ih =>
    intro hInside
    rcases terminator_of_escaped hInside with hHead | hInside
    · exact hRest.head?_ne hHead
    · exact ih hInside
  | enter hRest ih | leave hRest ih =>
    exact fun hInside => ih (terminator_infix_cons (by decide) hInside)
  | plain hEscape hOpen hClose hBreak hSlash hRest ih =>
    exact fun hInside => ih (terminator_infix_cons hBreak.2 hInside)

/-! ## Block comments -/

theorem commentBody_cons_iff {c : Char} {cs : List Char} :
    CommentBody (c :: cs) ↔
      (c = '*' ∧ cs = ['/']) ∨ ¬(c = '*' ∧ cs.head? = some '/') ∧ CommentBody cs := by
  constructor
  · intro h
    cases h with
    | close => exact .inl ⟨rfl, rfl⟩
    | plain hOpen hRest => exact .inr ⟨hOpen, hRest⟩
  · rintro (⟨rfl, rfl⟩ | ⟨hOpen, hRest⟩)
    · exact .close
    · exact .plain hOpen hRest

theorem withReturns_eq_singleton {d : Char} (hFeed : d ≠ '\n') (hReturn : d ≠ '\r')
    {cs : List Char} : withReturns cs = [d] ↔ cs = [d] := by
  constructor
  · intro h
    rcases withReturns_eq_cons h with ⟨tail, rfl, rfl, -⟩ | ⟨tail, rfl, -, hRest⟩
    · exact absurd rfl hReturn
    · rw [withReturns_eq_nil_iff.mp hRest.symm]
  · rintro rfl
    exact withReturns_cons hFeed []

theorem commentBody_withReturns {cs : List Char} :
    CommentBody (withReturns cs) ↔ CommentBody cs := by
  induction cs with
  | nil => rfl
  | cons c cs ih =>
    by_cases hc : c = '\n'
    · subst hc
      rw [withReturns_feed, commentBody_cons_iff, commentBody_cons_iff, commentBody_cons_iff, ih]
      simp
    · rw [withReturns_cons hc, commentBody_cons_iff, commentBody_cons_iff, ih,
        withReturns_eq_singleton (by decide) (by decide),
        withReturns_head? (by decide) (by decide)]

end Literal

/-! ## Template literals -/

namespace Template

namespace Frame

/-- The quote of a quotation is a quotation mark. -/
def Proper (f : Frame) : Prop := ∀ quote, f = .quoted quote → quote = '"' ∨ quote = '\''

theorem proper_move {f : Frame} (hf : f.Proper) (i : Nat) (c : Char) (next : Option Char) :
    ∀ g ∈ (f.move i c next).frames, g.Proper := by
  rintro g hg quote rfl
  rcases f.move_quoted i c next hg with hQuote | hQuote | hSame
  · exact .inl hQuote
  · exact .inr hQuote
  · exact hf quote hSame

theorem move_return {f : Frame} (hf : f.Proper) (i : Nat) (next : Option Char) :
    f.move i '\r' next = ⟨[f], 1⟩ := by
  cases f with
  | quoted quote => rcases hf quote rfl with rfl | rfl <;> rfl
  | _ => simp [move]

/-- A line feed ends a line comment, and nothing else sees it. -/
theorem move_feed {f : Frame} (hf : f.Proper) (i : Nat) (next : Option Char) :
    f.move i '\n' next = ⟨if f = .lineComment then [] else [f], 1⟩ := by
  cases f with
  | quoted quote => rcases hf quote rfl with rfl | rfl <;> rfl
  | _ => simp [move]

/-- Only what opens something and what ends a comment is looked for ahead. -/
theorem move_congr (f : Frame) (i : Nat) (c : Char) {next other : Option Char}
    (hSome : next.isSome = other.isSome)
    (hAhead : ∀ d ∈ ['{', '/', '*'], next = some d ↔ other = some d) :
    f.move i c next = f.move i c other := by
  have hBrace := hAhead '{' (by simp)
  have hSlash := hAhead '/' (by simp)
  have hStar := hAhead '*' (by simp)
  cases f <;> simp only [move, hSome, hBrace, hSlash, hStar]

theorem move_two_feed {f : Frame} {i : Nat} {c : Char}
    (hTwo : (f.move i c (some '\n')).count = 2) :
    f.move i c (some '\n') = ⟨[f], 2⟩ ∧ f ≠ .lineComment := by
  cases f <;> grind [move]

end Frame

theorem isSome_withReturns_head? (cs : List Char) :
    (withReturns cs).head?.isSome = cs.head?.isSome := by
  cases cs with
  | nil => rfl
  | cons c cs =>
    by_cases hc : c = '\n'
    · subst hc
      rfl
    · rw [withReturns_cons hc]
      rfl

theorem move_withReturns (f : Frame) (c : Char) (cs : List Char) :
    f.move 0 c (withReturns cs).head? = f.move 0 c cs.head? := by
  apply f.move_congr 0 c (isSome_withReturns_head? cs)
  simp only [List.forall_mem_cons, List.not_mem_nil, false_imp_iff, implies_true, and_true]
  exact ⟨withReturns_head? (by decide) (by decide), withReturns_head? (by decide) (by decide),
    withReturns_head? (by decide) (by decide)⟩

theorem spent_withReturns {stack : List Frame} (hStack : ∀ f ∈ stack, f.Proper) {cs : List Char} :
    Spent stack (withReturns cs) ↔ Spent stack cs := by
  match stack, cs with
  | _, [] => rfl
  | [], c :: cs =>
    constructor
    · intro h
      generalize hw : withReturns (c :: cs) = w at h
      cases h
      cases withReturns_eq_nil_iff.mp hw
    · intro h
      cases h
  | f :: below, c :: cs =>
    rw [List.forall_mem_cons] at hStack
    have hMoved (d : Char) (next : Option Char) :
        ∀ g ∈ (f.move 0 d next).frames ++ below, g.Proper := by
      intro g hg
      rcases List.mem_append.mp hg with hg | hg
      · exact Frame.proper_move hStack.1 0 d next g hg
      · exact hStack.2 g hg
    by_cases hc : c = '\n'
    · subst hc
      have hRest : Spent ((f.move 0 '\n' none).frames ++ below) (withReturns cs) ↔
          Spent ((f.move 0 '\n' none).frames ++ below) cs := spent_withReturns (hMoved _ _)
      rw [Frame.move_feed hStack.1] at hRest
      -- the return leaves the stack as it is, and what the line feed does is the same
      rw [withReturns_feed, spent_cons_iff, Frame.move_return hStack.1]
      change Spent (f :: below) ('\n' :: withReturns cs) ↔ _
      rw [spent_cons_iff, spent_cons_iff, Frame.move_feed hStack.1, Frame.move_feed hStack.1]
      exact hRest
    · rw [withReturns_cons hc, spent_cons_iff, spent_cons_iff, move_withReturns]
      rcases f.move_count 0 c cs.head? with hOne | ⟨hTwo, d, hNext⟩
      · rw [hOne]
        exact spent_withReturns (hMoved _ _)
      · obtain ⟨tail, rfl⟩ := List.head?_eq_some_iff.mp hNext
        have hRest : Spent ((f.move 0 c (some d)).frames ++ below) (withReturns tail) ↔
            Spent ((f.move 0 c (some d)).frames ++ below) tail := spent_withReturns (hMoved _ _)
        rw [List.head?_cons] at hTwo ⊢
        rw [hTwo]
        by_cases hd : d = '\n'
        · -- only a backslash takes a line feed along; with returns it takes the return, and the
          -- line feed behind it does nothing, because no line comment is open
          subst hd
          obtain ⟨hKeeps, hOpen⟩ := Frame.move_two_feed hTwo
          rw [hKeeps] at hRest ⊢
          change Spent (f :: below) ('\n' :: withReturns tail) ↔ _
          rw [spent_cons_iff, Frame.move_feed hStack.1, if_neg hOpen]
          exact hRest
        · rw [withReturns_cons hd]
          exact hRest
termination_by cs.length

end Template

end RuleScout
