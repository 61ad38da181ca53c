import RuleScout.Config.NameMap

/-!
# Looking things up in tables

A table answers what was set last for a name, and its names are distinct. When entries with
distinct names are set one after the other, their order does not matter.
-/

set_option autoImplicit false

namespace RuleScout.NameMap

variable {α β : Type}

theorem isEmpty_iff (m : NameMap α) : m.isEmpty = true ↔ m = empty := by
  obtain ⟨entries, hSorted⟩ := m
  simp [isEmpty, empty]

@[simp]
theorem get?_empty (name : String) : (empty : NameMap α).get? name = none := rfl

theorem lookup_cons_eq_ite (key name : String) (a : α) (l : List (String × α)) :
    ((key, a) :: l).lookup name = if name = key then some a else l.lookup name := by
  rw [List.lookup_cons]
  by_cases hEq : name = key
  · rw [if_pos hEq, beq_iff_eq.mpr hEq]
  · rw [if_neg hEq, beq_eq_false_iff_ne.mpr hEq]

theorem lookup_insertInto (name other : String) (a : α) (l : List (String × α)) :
    (insertInto name a l).lookup other = if other = name then some a else l.lookup other := by
  induction l with
  | nil => rw [insertInto, lookup_cons_eq_ite]
  | cons x rest ih =>
    obtain ⟨key, b⟩ := x
    rw [insertInto]
    split
    · rw [lookup_cons_eq_ite]
    · split
      · rename_i hEq
        rw [lookup_cons_eq_ite, lookup_cons_eq_ite, ← hEq]
        by_cases hOther : other = name
        · rw [if_pos hOther, if_pos hOther]
        · rw [if_neg hOther, if_neg hOther, if_neg hOther]
      · rename_i hNe
        rw [lookup_cons_eq_ite, lookup_cons_eq_ite, ih]
        by_cases hOther : other = key
        · have hOtherNe : other ≠ name := fun h => hNe (h.symm.trans hOther)
          rw [if_pos hOther, if_neg hOtherNe, if_pos hOther]
        · rw [if_neg hOther, if_neg hOther]

@[simp]
theorem get?_insert (m : NameMap α) (name other : String) (a : α) :
    (m.insert name a).get? other = if other = name then some a else m.get? other :=
  lookup_insertInto name other a m.entries

/-! ## Names -/

theorem contains_iff (m : NameMap α) (name : String) :
    m.contains name = true ↔ ∃ a, m.get? name = some a := by
  rw [contains, Option.isSome_iff_exists]

theorem mem_names_iff (m : NameMap α) (name : String) :
    name ∈ m.names ↔ ∃ a, m.get? name = some a := by
  rw [← Option.isSome_iff_exists, get?, List.lookup_isSome_iff, names, List.mem_map]
  simp only [beq_iff_eq]
  exact ⟨fun ⟨x, hx, hName⟩ => ⟨x, hx, hName.symm⟩, fun ⟨x, hx, hName⟩ => ⟨x, hx, hName.symm⟩⟩

theorem nodup_names (m : NameMap α) : m.names.Nodup := by
  rw [names, List.Nodup, List.pairwise_map]
  apply m.sorted.imp
  intro x y hLt hEq
  rw [hEq] at hLt
  exact String.lt_irrefl _ hLt

theorem get?_eq_some_iff (m : NameMap α) (name : String) (a : α) :
    m.get? name = some a ↔ (name, a) ∈ m.entries := by
  obtain ⟨entries, hSorted⟩ := m
  rw [get?]
  induction entries with
  | nil => simp
  | cons x rest ih =>
    obtain ⟨key, b⟩ := x
    obtain ⟨hBelow, hRest⟩ := List.pairwise_cons.mp hSorted
    have hTail := ih hRest
    rw [lookup_cons_eq_ite, List.mem_cons, Prod.mk.injEq]
    by_cases hEq : name = key
    · -- the key itself cannot stand behind its entry
      have hAbsent : (name, a) ∉ rest := by
        intro hMem
        have hLt : key < name := hBelow _ hMem
        rw [hEq] at hLt
        exact String.lt_irrefl _ hLt
      rw [if_pos hEq, Option.some.injEq]
      simp [hEq, hEq ▸ hAbsent, eq_comm]
    · rw [if_neg hEq]
      simp only [hEq, false_and, false_or]
      exact hTail

/-! ## Setting several entries -/

section Folds

variable (name : β → String) (value : β → α)

theorem get?_foldl_insert_of_absent (l : List β) (m : NameMap α) (other : String)
    (hAbsent : other ∉ l.map name) :
    (l.foldl (fun m x => m.insert (name x) (value x)) m).get? other = m.get? other := by
  induction l generalizing m with
  | nil => rfl
  | cons x xs ih =>
    rw [List.map_cons, List.mem_cons, not_or] at hAbsent
    rw [List.foldl_cons, ih _ hAbsent.2, get?_insert, if_neg hAbsent.1]

theorem get?_foldl_insert_of_mem (l : List β) (m : NameMap α) (hDistinct : (l.map name).Nodup)
    (x : β) (hx : x ∈ l) :
    (l.foldl (fun m x => m.insert (name x) (value x)) m).get? (name x) = some (value x) := by
  induction l generalizing m with
  | nil => cases hx
  | cons y ys ih =>
    rw [List.map_cons, List.nodup_cons] at hDistinct
    rw [List.foldl_cons]
    rcases List.mem_cons.mp hx with rfl | hx
    · rw [get?_foldl_insert_of_absent name value ys _ _ hDistinct.1, get?_insert, if_pos rfl]
    · exact ih _ hDistinct.2 hx

theorem contains_foldl_insert_iff (l : List β) (m : NameMap α) (other : String) :
    (l.foldl (fun m x => m.insert (name x) (value x)) m).contains other = true ↔
      m.contains other = true ∨ other ∈ l.map name := by
  induction l generalizing m with
  | nil => simp
  | cons x xs ih =>
    rw [List.foldl_cons, ih, contains, get?_insert, List.map_cons, List.mem_cons, ← or_assoc]
    apply or_congr_left
    by_cases hEq : other = name x
    · simp [hEq]
    · simp [hEq, contains]

end Folds

/-! ## Tables as what they answer -/

/-- A table is known by its answers. -/
theorem ext_get? (m other : NameMap α) (hSame : ∀ name, m.get? name = other.get? name) :
    m = other := by
  have hDistinct (t : NameMap α) : t.entries.Nodup := by
    apply t.sorted.imp
    rintro x y hLt rfl
    exact String.lt_irrefl _ hLt
  have hPerm : m.entries.Perm other.entries := by
    apply (List.perm_ext_iff_of_nodup (hDistinct m) (hDistinct other)).mpr
    rintro ⟨name, a⟩
    rw [← get?_eq_some_iff, ← get?_eq_some_iff, hSame]
  have hEntries : m.entries = other.entries := by
    apply hPerm.eq_of_pairwise ?_ m.sorted other.sorted
    intro x y _ _ hLt hGt
    exact absurd (String.lt_trans hLt hGt) (String.lt_irrefl _)
  cases m
  cases other
  cases hEntries
  rfl

@[simp]
theorem get?_insertNew (m : NameMap α) (name other : String) (a : α) :
    (m.insertNew name a).get? other =
      (m.get? other).or (if other = name then some a else none) := by
  rw [insertNew]
  split
  · rename_i hTaken
    obtain ⟨b, hb⟩ := (contains_iff m name).mp hTaken
    by_cases hEq : other = name
    · subst hEq
      rw [hb, Option.some_or]
    · rw [if_neg hEq, Option.or_none]
  · rename_i hFree
    have hNone : m.get? name = none := by simpa [contains] using hFree
    rw [get?_insert]
    by_cases hEq : other = name
    · subst hEq
      rw [hNone, if_pos rfl, Option.none_or]
    · rw [if_neg hEq, if_neg hEq, Option.or_none]

/-- What a table answers is kept; where it has no answer the other one is asked. -/
@[simp]
theorem get?_orElse (m other : NameMap α) (name : String) :
    (m.orElse other).get? name = (m.get? name).or (other.get? name) := by
  obtain ⟨entries, hSorted⟩ := other
  simp only [orElse, get?]
  clear hSorted
  induction entries generalizing m with
  | nil => simp
  | cons x rest ih =>
    obtain ⟨key, a⟩ := x
    have hHead := get?_insertNew m key name a
    simp only [get?] at hHead
    rw [List.foldl_cons, ih, hHead, Option.or_assoc, lookup_cons_eq_ite]
    by_cases hEq : name = key
    · rw [if_pos hEq, if_pos hEq, Option.some_or]
    · rw [if_neg hEq, if_neg hEq, Option.none_or]

@[simp]
theorem get?_filter (m : NameMap α) (p : String → α → Bool) (name : String) :
    (m.filter p).get? name = (m.get? name).filter (p name) := by
  have hMem (a : α) : (m.filter p).get? name = some a ↔ m.get? name = some a ∧ p name a = true := by
    rw [get?_eq_some_iff, get?_eq_some_iff, filter, List.mem_filter]
  apply Option.ext
  intro a
  rw [hMem, Option.filter_eq_some_iff]

theorem contains_ofList_iff (l : List (String × α)) (name : String) :
    (ofList l).contains name = true ↔ name ∈ l.map (·.1) := by
  have h := contains_foldl_insert_iff Prod.fst Prod.snd l (empty : NameMap α) name
  rw [ofList, h]
  simp [contains]

theorem get?_ofList_of_mem (l : List (String × α)) (hDistinct : (l.map (·.1)).Nodup)
    (x : String × α) (hx : x ∈ l) : (ofList l).get? x.1 = some x.2 :=
  get?_foldl_insert_of_mem Prod.fst Prod.snd l empty hDistinct x hx

theorem get?_ofList_of_absent (l : List (String × α)) (name : String)
    (hAbsent : name ∉ l.map (·.1)) : (ofList l).get? name = none :=
  get?_foldl_insert_of_absent Prod.fst Prod.snd l empty name hAbsent

/-- A table is the one that its entries make up. -/
theorem ofList_entries (m : NameMap α) : ofList m.entries = m := by
  apply ext_get?
  intro name
  cases hFound : m.get? name with
  | some a =>
    exact get?_ofList_of_mem _ m.nodup_names (name, a) ((m.get?_eq_some_iff name a).mp hFound)
  | none =>
    apply get?_ofList_of_absent
    intro hName
    obtain ⟨a, ha⟩ := (m.mem_names_iff name).mp hName
    rw [hFound] at ha
    cases ha

end RuleScout.NameMap
