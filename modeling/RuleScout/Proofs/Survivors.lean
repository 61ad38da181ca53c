import RuleScout.Discovery.Survivors
import RuleScout.Proofs.NameMap

/-!
# Survivors and the division of the rules

The survivors of a rule are its clean candidates in the order of the results, whatever other
rules the results speak of. Every rule of the registry is on exactly one side of the division:
it fails when it has no survivor, and passes with its survivors otherwise.
-/

set_option autoImplicit false

namespace RuleScout

/-- The clean candidates of a rule among trial results, in the order of the results. -/
def cleanCandidates (results : List TrialResult) (id : String) : List Candidate :=
  ((results.filter (·.clean)).map (·.candidate)).filter (·.rule = id)

theorem cleanCandidates_map (cs : List Candidate) (clean : Candidate → Bool) (id : String) :
    cleanCandidates (cs.map fun c => ⟨c, clean c⟩) id =
      (cs.filter (·.rule = id)).filter clean := by
  have hClean : ((cs.map fun c => (⟨c, clean c⟩ : TrialResult)).filter (·.clean)).map
      (·.candidate) = cs.filter clean := by
    rw [List.filter_map, List.map_map]
    exact List.map_id' _
  rw [cleanCandidates, hClean, List.filter_filter, List.filter_filter]
  simp only [Bool.and_comm]

namespace Survivors

theorem lookup_addTo (c : Candidate) (l : List (String × List Candidate)) (id : String) :
    ((addTo c l).lookup id).getD [] =
      (l.lookup id).getD [] ++ if c.rule = id then [c] else [] := by
  induction l with
  | nil =>
    rw [addTo, NameMap.lookup_cons_eq_ite]
    by_cases hEq : id = c.rule
    · simp [hEq]
    · simp [hEq, Ne.symm hEq]
  | cons x rest ih =>
    obtain ⟨key, cs⟩ := x
    rw [addTo]
    by_cases hKey : key = c.rule
    · rw [if_pos hKey, NameMap.lookup_cons_eq_ite, NameMap.lookup_cons_eq_ite]
      by_cases hEq : id = key
      · simp [hEq, hKey]
      · have hNe : c.rule ≠ id := fun h => hEq (h.symm.trans hKey.symm)
        simp [hEq, hNe]
    · rw [if_neg hKey, NameMap.lookup_cons_eq_ite, NameMap.lookup_cons_eq_ite]
      by_cases hEq : id = key
      · have hNe : c.rule ≠ id := fun h => hKey (hEq.symm.trans h.symm)
        simp [hEq ▸ hNe, hEq]
      · rw [if_neg hEq, if_neg hEq]
        exact ih

theorem get_add (s : Survivors) (c : Candidate) (id : String) :
    (s.add c).get id = s.get id ++ if c.rule = id then [c] else [] :=
  lookup_addTo c s.byRule id

theorem get_foldl_add (cs : List Candidate) (s : Survivors) (id : String) :
    (cs.foldl add s).get id = s.get id ++ cs.filter (·.rule = id) := by
  induction cs generalizing s with
  | nil => simp
  | cons c cs ih =>
    rw [List.foldl_cons, ih, get_add, List.append_assoc, List.filter_cons]
    by_cases hEq : c.rule = id <;> simp [hEq]

theorem get_none (ids : List String) (id : String) :
    (⟨ids.map (·, [])⟩ : Survivors).get id = [] := by
  rw [get]
  induction ids with
  | nil => rfl
  | cons x xs ih =>
    rw [List.map_cons, NameMap.lookup_cons_eq_ite]
    by_cases hEq : id = x
    · rw [if_pos hEq]
      rfl
    · rw [if_neg hEq]
      exact ih

theorem get_ofResults (registry : Registry) (results : List TrialResult) (id : String) :
    (ofResults registry results).get id = cleanCandidates results id := by
  rw [ofResults, get_foldl_add, get_none, List.nil_append, cleanCandidates]

/-! ## The rules that have a place -/

theorem names_addTo (c : Candidate) (l : List (String × List Candidate))
    (hKnown : c.rule ∈ l.map (·.1)) : (addTo c l).map (·.1) = l.map (·.1) := by
  induction l with
  | nil => cases hKnown
  | cons x rest ih =>
    obtain ⟨key, cs⟩ := x
    rw [addTo]
    by_cases hKey : key = c.rule
    · rw [if_pos hKey, List.map_cons, List.map_cons]
    · have hRest : c.rule ∈ rest.map (·.1) := by
        rw [List.map_cons, List.mem_cons] at hKnown
        exact hKnown.resolve_left (Ne.symm hKey)
      rw [if_neg hKey, List.map_cons, List.map_cons, ih hRest]

theorem names_foldl_add (cs : List Candidate) (s : Survivors)
    (hKnown : ∀ c ∈ cs, c.rule ∈ s.byRule.map (·.1)) :
    (cs.foldl add s).byRule.map (·.1) = s.byRule.map (·.1) := by
  induction cs generalizing s with
  | nil => rfl
  | cons c cs ih =>
    have hNames : (s.add c).byRule.map (·.1) = s.byRule.map (·.1) :=
      names_addTo c s.byRule (hKnown c List.mem_cons_self)
    rw [List.foldl_cons, ih, hNames]
    intro d hd
    rw [hNames]
    exact hKnown d (List.mem_cons_of_mem _ hd)

/-- Results that speak of the rules of the registry only leave no trace of others. -/
theorem names_ofResults (registry : Registry) (results : List TrialResult)
    (hKnown : ∀ t ∈ results, t.candidate.rule ∈ registry.ids) :
    (ofResults registry results).byRule.map (·.1) = registry.ids := by
  have hStart : (registry.ids.map fun id => (id, ([] : List Candidate))).map (·.1) =
      registry.ids := by
    rw [List.map_map]
    exact List.map_id' _
  rw [ofResults, names_foldl_add]
  · exact hStart
  · intro c hc
    obtain ⟨t, ht, rfl⟩ := List.mem_map.mp hc
    rw [hStart]
    exact hKnown t (List.mem_filter.mp ht).1

theorem contains_iff_mem_names (s : Survivors) (id : String) :
    s.contains id = true ↔ id ∈ s.byRule.map (·.1) := by
  rw [contains, List.any_eq_true, List.mem_map]
  simp

/-! ## Failing and passing rules -/

theorem contains_failing_iff (s : Survivors) (registry : Registry) (id : String) :
    (s.failing registry).contains id = true ↔ id ∈ registry.ids ∧ s.get id = [] := by
  rw [failing, NameMap.contains_ofList_iff, List.map_map]
  simp

end Survivors

namespace Partition

theorem passing_eq (s : Survivors) (registry : Registry) :
    (ofSurvivors s registry).passing =
      (registry.ids.filter fun id => !(s.get id).isEmpty).map fun id => (id, s.get id) := by
  have hFilter : (registry.ids.filter fun id => !(s.failing registry).contains id) =
      registry.ids.filter fun id => !(s.get id).isEmpty := by
    apply List.filter_congr
    intro id hId
    apply congrArg
    rw [Bool.eq_iff_iff, s.contains_failing_iff registry id, List.isEmpty_iff]
    exact and_iff_right hId
  exact congrArg (List.map fun id => (id, s.get id)) hFilter

theorem passingIds_eq (s : Survivors) (registry : Registry) :
    (ofSurvivors s registry).passing.map (·.1) =
      registry.ids.filter fun id => !(s.get id).isEmpty := by
  rw [passing_eq, List.map_map]
  exact List.map_id' _

theorem mem_passingIds_iff (s : Survivors) (registry : Registry) (id : String) :
    id ∈ (ofSurvivors s registry).passing.map (·.1) ↔ id ∈ registry.ids ∧ s.get id ≠ [] := by
  rw [passingIds_eq, List.mem_filter]
  simp

theorem mem_passing_iff (s : Survivors) (registry : Registry) (x : String × List Candidate) :
    x ∈ (ofSurvivors s registry).passing ↔
      x.1 ∈ registry.ids ∧ x.2 = s.get x.1 ∧ x.2 ≠ [] := by
  obtain ⟨id, cs⟩ := x
  rw [passing_eq, List.mem_map]
  constructor
  · rintro ⟨name, hName, hEq⟩
    obtain ⟨rfl, rfl⟩ := Prod.mk.inj hEq
    obtain ⟨hMem, hNonempty⟩ := List.mem_filter.mp hName
    exact ⟨hMem, rfl, by simpa using hNonempty⟩
  · rintro ⟨hMem, hGet, hNonempty⟩
    simp only at hMem hGet hNonempty
    subst hGet
    exact ⟨id, List.mem_filter.mpr ⟨hMem, by simpa using hNonempty⟩, rfl⟩

/-- Through the table of the passing rules every rule of the registry gets its survivors. -/
theorem get?_ofList_passing (s : Survivors) (registry : Registry)
    (hDistinct : registry.ids.Nodup) (id : String) (hId : id ∈ registry.ids) :
    ((NameMap.ofList (ofSurvivors s registry).passing).get? id).getD [] = s.get id := by
  have hNames : ((ofSurvivors s registry).passing.map (·.1)).Nodup := by
    rw [passingIds_eq]
    exact hDistinct.filter _
  by_cases hEmpty : s.get id = []
  · rw [NameMap.get?_ofList_of_absent, hEmpty]
    · rfl
    · rw [mem_passingIds_iff]
      exact fun h => h.2 hEmpty
  · have hMem := (mem_passing_iff s registry (id, s.get id)).mpr ⟨hId, rfl, hEmpty⟩
    rw [NameMap.get?_ofList_of_mem _ hNames _ hMem]
    rfl

end Partition

end RuleScout
