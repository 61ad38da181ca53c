import RuleScout.Source.Bracket

/-!
# Well-nested brackets

Only the brackets among the lexemes count. They are well nested when every opening bracket has a
closing one of its own sort with well-nested brackets between the two. `consume` reads brackets
with a stack of those that are open, and it comes back to an empty stack exactly when they are
well nested.
-/

set_option autoImplicit false

namespace RuleScout

inductive Mark where
  | opening (b : Bracket)
  | closing (b : Bracket)
  deriving DecidableEq, Repr

namespace Lexeme

/-- The bracket that a lexeme is, if it is one. -/
def mark? (t : Lexeme) : Option Mark :=
  match Bracket.opened? t with
  | some b => some (.opening b)
  | none => (Bracket.closed? t).map .closing

end Lexeme

def Mark.text : Mark → String
  | .opening b => b.opening
  | .closing b => b.closing

def marks (ls : List Lexeme) : List Mark := ls.filterMap Lexeme.mark?

inductive Nested : List Mark → Prop where
  | nil : Nested []
  | wrap (b : Bracket) {inner rest : List Mark} (hInner : Nested inner) (hRest : Nested rest) :
      Nested (.opening b :: (inner ++ .closing b :: rest))

/-! ## Which lexemes are brackets -/

theorem opening_injective (a b : Bracket) (h : a.opening = b.opening) : a = b := by
  cases a <;> cases b <;> first | rfl | exact absurd h (by decide)

theorem closing_injective (a b : Bracket) (h : a.closing = b.closing) : a = b := by
  cases a <;> cases b <;> first | rfl | exact absurd h (by decide)

theorem opening_ne_closing (a b : Bracket) : a.opening ≠ b.closing := by
  cases a <;> cases b <;> decide

namespace Lexeme

variable {t : Lexeme} {b : Bracket}

theorem isPunct_iff {text : String} :
    t.isPunct text = true ↔ t.kind = .punctuator ∧ t.text = text := by
  simp [isPunct]

theorem isPunct_of_isPunct {text other : String} (h : t.isPunct text = true)
    (hOther : text ≠ other) : t.isPunct other = false := by
  simp [isPunct, (isPunct_iff.mp h).2, hOther]

theorem find?_isPunct_eq_some_iff {spelling : Bracket → String}
    (hInjective : ∀ a b, spelling a = spelling b → a = b) :
    (Bracket.all.find? fun a => t.isPunct (spelling a)) = some b ↔
      t.kind = .punctuator ∧ t.text = spelling b := by
  constructor
  · intro h
    simpa [isPunct] using List.find?_some h
  · rintro ⟨hKind, hText⟩
    have hOnly (a : Bracket) : t.isPunct (spelling a) = decide (b = a) := by
      rw [isPunct, hKind, hText, decide_eq_true rfl, Bool.true_and, decide_eq_decide]
      exact ⟨hInjective b a, congrArg spelling⟩
    simp only [hOnly]
    cases b <;> rfl

theorem opened?_eq_some_iff :
    Bracket.opened? t = some b ↔ t.kind = .punctuator ∧ t.text = b.opening :=
  find?_isPunct_eq_some_iff opening_injective

theorem closed?_eq_some_iff :
    Bracket.closed? t = some b ↔ t.kind = .punctuator ∧ t.text = b.closing :=
  find?_isPunct_eq_some_iff closing_injective

/-- A bracket is a punctuator that is spelled like one. -/
theorem mark?_eq_some_iff {m : Mark} :
    t.mark? = some m ↔ t.kind = .punctuator ∧ t.text = m.text := by
  cases m with
  | opening b =>
    rw [Mark.text, ← opened?_eq_some_iff, mark?]
    cases Bracket.opened? t with
    | some a => simp
    | none => simp
  | closing b =>
    rw [Mark.text, ← closed?_eq_some_iff, mark?]
    cases hOpened : Bracket.opened? t with
    | some a =>
      -- no spelling opens and closes
      obtain ⟨-, hText⟩ := opened?_eq_some_iff.mp hOpened
      rw [closed?_eq_some_iff, hText]
      simp [opening_ne_closing]
    | none => simp

theorem mark?_isSome_iff :
    t.mark?.isSome = true ↔
      t.kind = .punctuator ∧ t.text ∈ ["(", ")", "[", "]", "\x7b", "\x7d"] := by
  rw [Option.isSome_iff_exists]
  constructor
  · rintro ⟨m, hMark⟩
    obtain ⟨hKind, hText⟩ := mark?_eq_some_iff.mp hMark
    refine ⟨hKind, ?_⟩
    rw [hText]
    cases m with
    | opening b => cases b <;> decide
    | closing b => cases b <;> decide
  · rintro ⟨hKind, hText⟩
    have hSpelled : ∃ m : Mark, t.text = m.text := by
      simp only [List.mem_cons, List.not_mem_nil, or_false] at hText
      rcases hText with hText | hText | hText | hText | hText | hText
      · exact ⟨.opening .round, hText⟩
      · exact ⟨.closing .round, hText⟩
      · exact ⟨.opening .square, hText⟩
      · exact ⟨.closing .square, hText⟩
      · exact ⟨.opening .curly, hText⟩
      · exact ⟨.closing .curly, hText⟩
    obtain ⟨m, hm⟩ := hSpelled
    exact ⟨m, mark?_eq_some_iff.mpr ⟨hKind, hm⟩⟩

end Lexeme

/-! ## Reading brackets with a stack -/

/-- What is open behind a bracket, if it fits. -/
def Mark.onto (stack : List Bracket) : Mark → Option (List Bracket)
  | .opening b => some (b :: stack)
  | .closing b =>
    match stack with
    | [] => none
    | top :: below => if top = b then some below else none

/-- What is open behind the brackets, if all of them fit. -/
def consume (stack : List Bracket) (ms : List Mark) : Option (List Bracket) :=
  ms.foldlM Mark.onto stack

section Consume

variable {b : Bracket} {stack : List Bracket} {ms ns : List Mark}

@[simp] theorem consume_opening :
    consume stack (.opening b :: ms) = consume (b :: stack) ms := rfl

@[simp] theorem consume_closing : consume (b :: stack) (.closing b :: ms) = consume stack ms := by
  simp [consume, Mark.onto]

theorem consume_append :
    consume stack (ms ++ ns) = (consume stack ms).bind fun next => consume next ns :=
  List.foldlM_append

theorem exists_below_of_consume {next : List Bracket}
    (h : consume stack (.closing b :: ms) = some next) : ∃ below, stack = b :: below := by
  cases stack with
  | nil => cases h
  | cons top below =>
    by_cases hTop : top = b
    · exact ⟨below, by rw [hTop]⟩
    · simp [consume, Mark.onto, hTop] at h

/-- What lies below the stack is not touched. -/
theorem consume_below {next : List Bracket} (h : consume stack ms = some next)
    (more : List Bracket) :
    consume (stack ++ more) ms = some (next ++ more) := by
  induction ms generalizing stack with
  | nil =>
    cases h
    rfl
  | cons m ms ih =>
    cases m with
    | opening b => exact @ih (b :: stack) h
    | closing b =>
      obtain ⟨below, rfl⟩ := exists_below_of_consume h
      rw [consume_closing] at h
      rw [List.cons_append, consume_closing]
      exact ih h

theorem consume_of_nested (h : Nested ms) (stack : List Bracket) (rest : List Mark) :
    consume stack (ms ++ rest) = consume stack rest := by
  induction h generalizing stack rest with
  | nil => rfl
  | wrap b _ _ ihInner ihRest =>
    rw [List.cons_append, List.append_assoc, consume_opening, ihInner, List.cons_append,
      consume_closing, ihRest]

/-- The brackets close what is open, one after the other, and are well nested in between. -/
inductive Unwinds : List Bracket → List Mark → Prop where
  | done {ms : List Mark} (hRest : Nested ms) : Unwinds [] ms
  | close {b : Bracket} {stack : List Bracket} {inner rest : List Mark} (hInner : Nested inner)
      (hRest : Unwinds stack rest) : Unwinds (b :: stack) (inner ++ .closing b :: rest)

theorem Unwinds.opening (h : Unwinds (b :: stack) ms) : Unwinds stack (.opening b :: ms) := by
  cases h with
  | @close _ _ inner rest hInner hRest =>
    cases hRest with
    | done hRest => exact .done (.wrap b hInner hRest)
    | @close other _ gap rest hGap hRest =>
      have hWrapped := Nested.wrap b hInner hGap
      have hClosed := Unwinds.close (b := other) hWrapped hRest
      simpa using hClosed

theorem unwinds_of_consume (h : consume stack ms = some []) : Unwinds stack ms := by
  -- from the right: what follows a bracket unwinds the stack that the bracket leaves
  induction ms generalizing stack with
  | nil =>
    cases h
    exact .done .nil
  | cons m ms ih =>
    cases m with
    | opening b => exact (ih h).opening
    | closing b =>
      obtain ⟨below, rfl⟩ := exists_below_of_consume h
      rw [consume_closing] at h
      exact .close .nil (ih h)

theorem nested_iff_consume : Nested ms ↔ consume [] ms = some [] := by
  constructor
  · intro h
    have hAll := consume_of_nested h [] []
    rwa [List.append_nil] at hAll
  · intro h
    cases unwinds_of_consume h with
    | done hNested => exact hNested

end Consume

end RuleScout
