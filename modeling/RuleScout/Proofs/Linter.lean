import RuleScout.Linter
import RuleScout.Proofs.NameMap

/-!
# The findings of one rule

A rule of the catalog is found under its id. The findings that carry the id of a rule are the
ones that the rule itself reports under its own setting, whatever else is configured.
-/

set_option autoImplicit false

namespace RuleScout

/-! ## What is made of things with distinct ids -/

section Tagged

variable {α β : Type} (id : α → String) (tag : β → String) (f : α → List β)
  (hTag : ∀ x, ∀ y ∈ f x, tag y = id x)
include hTag

theorem filter_flatMap_of_absent (xs : List α) (name : String) (hAbsent : name ∉ xs.map id) :
    (xs.flatMap f).filter (tag · = name) = [] := by
  apply List.filter_eq_nil_iff.mpr
  intro y hy hName
  obtain ⟨x, hx, hMade⟩ := List.mem_flatMap.mp hy
  rw [hTag x y hMade, decide_eq_true_eq] at hName
  exact hAbsent (hName ▸ List.mem_map_of_mem hx)

theorem filter_flatMap_of_mem (xs : List α) (hDistinct : (xs.map id).Nodup) (x : α)
    (hx : x ∈ xs) : (xs.flatMap f).filter (tag · = id x) = f x := by
  induction xs with
  | nil => cases hx
  | cons z zs ih =>
    rw [List.map_cons, List.nodup_cons] at hDistinct
    rw [List.flatMap_cons, List.filter_append]
    rcases List.mem_cons.mp hx with rfl | hMem
    · have hOwn : (f x).filter (tag · = id x) = f x :=
        List.filter_eq_self.mpr fun y hy => decide_eq_true (hTag x y hy)
      rw [hOwn, filter_flatMap_of_absent id tag f hTag zs _ hDistinct.1, List.append_nil]
    · have hOther : (f z).filter (tag · = id x) = [] := by
        apply List.filter_eq_nil_iff.mpr
        intro y hy hName
        rw [hTag z y hy, decide_eq_true_eq] at hName
        exact hDistinct.1 (hName ▸ List.mem_map_of_mem hMem)
      rw [hOther, ih hDistinct.2 hMem, List.nil_append]

end Tagged

/-! ## Rules and their findings -/

namespace Catalog

theorem get?_of_mem (catalog : Catalog) (r : Rule) (hr : r ∈ catalog.rules) :
    catalog.get? r.id = some r := by
  obtain ⟨rules, hDistinct⟩ := catalog
  rw [get?]
  induction rules with
  | nil => cases hr
  | cons x xs ih =>
    rw [List.map_cons, List.nodup_cons] at hDistinct
    rcases List.mem_cons.mp hr with rfl | hMem
    · exact List.find?_cons_of_pos (by simp)
    · have hNe : x.id ≠ r.id := fun hEq => hDistinct.1 (hEq ▸ List.mem_map_of_mem hMem)
      rw [List.find?_cons_of_neg (by simpa using hNe)]
      exact ih hDistinct.2 hMem

theorem mem_ids_iff (catalog : Catalog) (id : String) :
    id ∈ catalog.ids ↔ ∃ r ∈ catalog.rules, r.id = id := List.mem_map

theorem contains_id (catalog : Catalog) (r : Rule) (hr : r ∈ catalog.rules) :
    catalog.contains r.id = true :=
  decide_eq_true ((catalog.mem_ids_iff r.id).mpr ⟨r, hr, rfl⟩)

end Catalog

namespace Linter

theorem rule_of_mem_verifyRule {catalog : Catalog} {u : SourceUnit} {id : String} {s : Setting}
    {f : Finding} (hf : f ∈ verifyRule catalog u id s) : f.rule = id := by
  rw [verifyRule] at hf
  split at hf
  · split at hf
    · obtain ⟨v, _, rfl⟩ := List.mem_map.mp hf
      rfl
    · cases hf
  · cases hf

/-- A rule that is turned on is silent exactly when its check is. -/
theorem verifyRule_eq_nil_iff (catalog : Catalog) (u : SourceUnit) (r : Rule)
    (hr : r ∈ catalog.rules) (s : Setting) :
    verifyRule catalog u r.id s = [] ↔ s.isEnabled = false ∨ r.check u ⟨s.options⟩ = [] := by
  rw [verifyRule, catalog.get?_of_mem r hr]
  by_cases hEnabled : s.isEnabled = true
  · rw [if_pos hEnabled, List.map_eq_nil_iff]
    simp [hEnabled]
  · rw [if_neg hEnabled]
    simp [hEnabled]

theorem mem_verify_iff (catalog : Catalog) (u : SourceUnit) (c : Config) (f : Finding) :
    f ∈ verify catalog u c ↔ ∃ s, c.rule? f.rule = some s ∧ f ∈ verifyRule catalog u f.rule s := by
  rw [verify, List.mem_mergeSort, List.mem_flatMap]
  constructor
  · rintro ⟨⟨id, s⟩, hEntry, hf⟩
    have hId := rule_of_mem_verifyRule hf
    subst hId
    exact ⟨s, (NameMap.get?_eq_some_iff _ _ _).mpr hEntry, hf⟩
  · rintro ⟨s, hSetting, hf⟩
    exact ⟨(f.rule, s), (NameMap.get?_eq_some_iff _ _ _).mp hSetting, hf⟩

/-- A rule is found to be violated exactly when its own check reports something under its own
setting. -/
theorem any_rule_verify_iff (catalog : Catalog) (u : SourceUnit) (c : Config) (id : String) :
    (∃ f ∈ verify catalog u c, f.rule = id) ↔
      ∃ s, c.rule? id = some s ∧ verifyRule catalog u id s ≠ [] := by
  constructor
  · rintro ⟨f, hf, rfl⟩
    obtain ⟨s, hSetting, hOwn⟩ := (mem_verify_iff catalog u c f).mp hf
    exact ⟨s, hSetting, List.ne_nil_of_mem hOwn⟩
  · rintro ⟨s, hSetting, hNonempty⟩
    obtain ⟨f, hf⟩ := List.exists_mem_of_ne_nil _ hNonempty
    have hId := rule_of_mem_verifyRule hf
    subst hId
    exact ⟨f, (mem_verify_iff catalog u c f).mpr ⟨s, hSetting, hf⟩, rfl⟩

end Linter

end RuleScout
