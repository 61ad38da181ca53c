import RuleScout.Proofs.Terminators

/-!
# Tokens in order

Passing over a character either goes to a later line or to a later column of the same line, so every
token of a text stands at a place of its own, behind the places of the tokens before it.
-/

set_option autoImplicit false

namespace RuleScout

def Token.Precedes (t n : Token) : Prop :=
  t.line < n.line ∨ t.line = n.line ∧ t.column < n.column

namespace Cursor

variable {cur : Cursor} {cs : List Char} {t n : Token} {ts : List Token}

theorem advance_place (cur : Cursor) (cs : List Char) :
    cur.line < (cur.advance cs).line ∨
      (cur.advance cs).line = cur.line ∧ (cur.advance cs).column = cur.column + cs.length := by
  induction cs generalizing cur with
  | nil => exact .inr ⟨rfl, rfl⟩
  | cons c cs ih =>
    rw [advance, List.length_cons]
    split
    · have hNext := ih ⟨cur.offset + c.utf8Size, cur.line + 1, 1, cur.previous⟩
      simp only at hNext
      omega
    · have hNext := ih ⟨cur.offset + c.utf8Size, cur.line, cur.column + 1, cur.previous⟩
      simp only at hNext
      omega

theorem pass_line (cur : Cursor) (t : Token) : (cur.pass t).line = (cur.advance t.chars).line := by
  rw [pass]
  split
  · rfl
  · rfl

theorem pass_column (cur : Cursor) (t : Token) :
    (cur.pass t).column = (cur.advance t.chars).column := by
  rw [pass]
  split
  · rfl
  · rfl

/-- Tokens that stand behind one another, the first of them not before the cursor. -/
structure Ordered (cur : Cursor) (ts : List Token) : Prop where
  behind : ∀ t ∈ ts, cur.line < t.line ∨ cur.line = t.line ∧ cur.column ≤ t.column
  sorted : ts.Pairwise Token.Precedes

namespace Cuts

theorem ordered (h : Cuts cur cs ts) : Ordered cur ts := by
  induction h with
  | nil => exact ⟨nofun, .nil⟩
  | @cons cur kind c pre rest ts hReads hRest ih =>
    have hPlace := cur.advance_place (c :: pre)
    rw [List.length_cons] at hPlace
    have hLater : ∀ n ∈ ts, cur.line < n.line ∨ cur.line = n.line ∧ cur.column < n.column := by
      intro n hn
      have hThere := ih.behind n hn
      rw [pass_line, pass_column, chars_token] at hThere
      omega
    constructor
    case behind =>
      refine List.forall_mem_cons.mpr ⟨.inr ⟨rfl, Nat.le_refl _⟩, fun n hn => ?_⟩
      exact (hLater n hn).imp_right (And.imp_right Nat.le_of_lt)
    case sorted => exact List.pairwise_cons.mpr ⟨hLater, ih.sorted⟩

theorem nodup (h : Cuts cur cs ts) : ts.Nodup := by
  refine h.ordered.sorted.imp fun hOrder hEq => ?_
  rw [hEq, Token.Precedes] at hOrder
  omega

theorem line_le_of_mem (h : Cuts cur cs (t :: ts)) (hn : n ∈ ts) : t.line ≤ n.line := by
  have hOrder := (List.pairwise_cons.mp h.ordered.sorted).1 n hn
  rw [Token.Precedes] at hOrder
  omega

end Cuts

end Cursor

/-- Different tokens of the code stand at different places. -/
theorem SourceUnit.place_ne {u : SourceUnit} {path text : String} {i j : Nat} {t n : Token}
    (h : parse path text = .ok u) (ht : u.significantTokens[i]? = some t)
    (hn : u.significantTokens[j]? = some n) (hij : i ≠ j) :
    (t.line, t.column) ≠ (n.line, n.column) := by
  have hSorted : u.significantTokens.Pairwise Token.Precedes :=
    (cuts_of_lex (lex_tokens h)).ordered.sorted.filter _
  obtain ⟨hi, rfl⟩ := List.getElem?_eq_some_iff.mp ht
  obtain ⟨hj, rfl⟩ := List.getElem?_eq_some_iff.mp hn
  have hOrder := List.pairwise_iff_getElem.mp hSorted
  rw [ne_eq, Prod.mk.injEq]
  rintro ⟨hLine, hColumn⟩
  rcases Nat.lt_or_gt_of_ne hij with hLt | hGt
  · rcases hOrder i j hi hj hLt with hBefore | ⟨-, hBefore⟩ <;> omega
  · rcases hOrder j i hj hi hGt with hBefore | ⟨-, hBefore⟩ <;> omega

end RuleScout
