import RuleScout.Rule.Basic
import RuleScout.Text.Inspect

/-!
# The rule catalog

The rules that exist, in the order of registration. A rule whose id is taken is not
registered, so an id names at most one rule.
-/

set_option autoImplicit false

namespace RuleScout

structure Catalog where
  rules : List Rule
  ids_nodup : (rules.map Rule.id).Nodup

namespace Catalog

def empty : Catalog := ⟨[], List.nodup_nil⟩

def ids (c : Catalog) : List String := c.rules.map Rule.id

def contains (c : Catalog) (id : String) : Bool := id ∈ c.ids

def register (c : Catalog) (r : Rule) : Catalog :=
  if taken : r.id ∈ c.rules.map Rule.id then c
  else
    { rules := c.rules ++ [r]
      ids_nodup := by
        rw [List.map_append, List.nodup_append]
        exact ⟨c.ids_nodup, by simp, by rintro a ha b hb rfl; simp at hb; exact taken (hb ▸ ha)⟩ }

def ofRules (rs : List Rule) : Catalog := rs.foldl register empty

def get? (c : Catalog) (id : String) : Option Rule := c.rules.find? (·.id = id)

def size (c : Catalog) : Nat := c.rules.length

def isEmpty (c : Catalog) : Bool := c.rules.isEmpty

def isRecommended (c : Catalog) (id : String) : Bool := (c.get? id).any Rule.isRecommended

def recommendedIds (c : Catalog) : List String :=
  (c.rules.filter Rule.isRecommended).map Rule.id

def inspect (c : Catalog) : String :=
  "RuleCatalog \x7b rules: [" ++ ", ".intercalate (c.ids.map Text.inspect) ++ "] \x7d"

theorem rules_register {c : Catalog} {r : Rule} (h : r.id ∉ c.ids) :
    (c.register r).rules = c.rules ++ [r] := by
  have absent : r.id ∉ c.rules.map Rule.id := h
  simp [register, absent]

theorem rules_foldl_register {c : Catalog} {rs : List Rule}
    (h : ((c.rules ++ rs).map Rule.id).Nodup) : (rs.foldl register c).rules = c.rules ++ rs := by
  induction rs generalizing c with
  | nil => exact (List.append_nil _).symm
  | cons r rs ih =>
    have hFresh : r.id ∉ c.ids := by
      rw [List.map_append, List.nodup_append] at h
      exact fun hMem => h.2.2 _ hMem _ (List.mem_map_of_mem List.mem_cons_self) rfl
    have hRules : (c.register r).rules ++ rs = c.rules ++ r :: rs := by
      rw [rules_register hFresh, List.append_assoc, List.singleton_append]
    rw [List.foldl_cons, ih (hRules ▸ h), hRules]

theorem rules_ofRules {rs : List Rule} (h : (rs.map Rule.id).Nodup) : (ofRules rs).rules = rs :=
  rules_foldl_register h

end Catalog

end RuleScout
