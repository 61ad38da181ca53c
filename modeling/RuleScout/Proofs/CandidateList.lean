import Mathlib.Algebra.BigOperators.Group.List.Lemmas
import RuleScout.Proofs.OptionTuples

/-!
# The shape of the list of candidates

How many candidates a rule has can be told from its schema by counting. Positions only ever add
candidates at the end of the list, and so a longer schema keeps the candidates of a shorter one in
their places.
-/

set_option autoImplicit false

namespace RuleScout

/-! ## Counting values -/

/-- The number of values of a property, none if they cannot be listed. -/
def PropertySchema.choices (p : PropertySchema) : Nat :=
  match p.kind with
  | .enumeration values => values.length
  | .boolean => 2
  | .anything => 0

/-- The number of values of a position, none if they cannot be listed. An object combines the
properties that can be listed, and it needs at least one. -/
def OptionSchema.choices : OptionSchema → Nat
  | .enumeration values => values.length
  | .object properties =>
    match (properties.map (·.choices)).filter (· ≠ 0) with
    | [] => 0
    | counts => counts.prod
  | .anything _ => 0

/-- The numbers of values of the positions in front of the first that cannot be listed. -/
def countedChoices (schema : List OptionSchema) : List Nat :=
  (schema.map (·.choices)).takeWhile (· ≠ 0)

/-- One candidate without options, and for each value of the first position one choice to be left
out more than the values of every later one. -/
def candidatesOfChoices : List Nat → Nat
  | [] => 1
  | n :: later => 1 + n * (later.map (1 + ·)).prod

section Values

variable {properties : List PropertySchema} {s : OptionSchema} {values : List Value}

theorem PropertySchema.map_length_candidateValues (p : PropertySchema) :
    p.candidateValues.map List.length = some p.choices ∨
      p.candidateValues = none ∧ p.choices = 0 := by
  obtain ⟨name, kind⟩ := p
  cases kind with
  | enumeration all =>
    cases all with
    | nil => exact .inr ⟨rfl, rfl⟩
    | cons v vs => exact .inl rfl
  | boolean => exact .inl rfl
  | anything => exact .inr ⟨rfl, rfl⟩

theorem map_length_listedProperties (properties : List PropertySchema) :
    (listedProperties properties).map (·.2.length) =
      (properties.map (·.choices)).filter (· ≠ 0) := by
  induction properties with
  | nil => rfl
  | cons p properties ih =>
    rw [listedProperties, List.filterMap_cons, List.map_cons]
    rcases p.map_length_candidateValues with hListed | ⟨hNone, hZero⟩
    · obtain ⟨values, hValues, hLength⟩ := Option.map_eq_some_iff.mp hListed
      have hSome : p.choices ≠ 0 := by
        rw [← hLength, Ne, List.length_eq_zero_iff]
        exact p.candidateValues_ne_nil hValues
      rw [List.filter_cons_of_pos (by simpa using hSome), hValues, ← ih, ← hLength]
      rfl
    · rw [hNone, List.filter_cons_of_neg (by simp [hZero]), ← ih]
      rfl

theorem length_extendObjects (objects : List (List (String × Value))) (name : String)
    (values : List Value) :
    (extendObjects objects name values).length = objects.length * values.length := by
  induction objects with
  | nil => simp [extendObjects]
  | cons fields objects ih =>
    rw [extendObjects] at ih ⊢
    rw [List.flatMap_cons, List.length_append, List.length_map, ih, List.length_cons, Nat.succ_mul,
      Nat.add_comm]

theorem length_foldl_extendObjects (listed : List (String × List Value))
    (objects : List (List (String × Value))) :
    (listed.foldl (fun objects (name, values) => extendObjects objects name values)
      objects).length = objects.length * (listed.map (·.2.length)).prod := by
  induction listed generalizing objects with
  | nil => simp
  | cons p listed ih =>
    rw [List.foldl_cons, ih, length_extendObjects, List.map_cons, List.prod_cons, Nat.mul_assoc]

/-- The values that are tried at a position are as many as it has choices. -/
theorem OptionSchema.map_length_values (s : OptionSchema) :
    s.values?.map List.length = some s.choices ∨ s.values? = none ∧ s.choices = 0 := by
  cases s with
  | enumeration all =>
    cases all with
    | nil => exact .inr ⟨rfl, rfl⟩
    | cons v vs => exact .inl rfl
  | object properties =>
    have hCounts := map_length_listedProperties properties
    rw [choices, values?, objectValues]
    cases hListed : listedProperties properties with
    | nil =>
      rw [hListed, List.map_nil] at hCounts
      rw [← hCounts]
      exact .inr ⟨rfl, rfl⟩
    | cons p listed =>
      rw [hListed, List.map_cons] at hCounts
      have hLength := length_foldl_extendObjects (p :: listed) [[]]
      rw [List.map_cons, List.length_singleton, Nat.one_mul] at hLength
      rw [← hCounts]
      simp only [Option.map_some, List.length_map]
      exact .inl (congrArg some hLength)
  | anything description => exact .inr ⟨rfl, rfl⟩

theorem OptionSchema.choices_of_values (h : s.values? = some values) :
    values.length = s.choices ∧ s.choices ≠ 0 := by
  rcases s.map_length_values with hLength | ⟨hNone, -⟩
  · rw [h, Option.map_some, Option.some.injEq] at hLength
    refine ⟨hLength, ?_⟩
    rw [← hLength, Ne, List.length_eq_zero_iff]
    exact values?_ne_nil h
  · rw [h] at hNone
    cases hNone

theorem OptionSchema.choices_of_none (h : s.values? = none) : s.choices = 0 := by
  rcases s.map_length_values with hLength | ⟨-, hZero⟩
  · rw [h] at hLength
    cases hLength
  · exact hZero

end Values

/-! ## Counting tuples -/

variable {s : OptionSchema} {schema : List OptionSchema} {tuples : List (List Value)}
  {values : List Value}

theorem countedChoices_cons (h : s.values? = some values) :
    countedChoices (s :: schema) = values.length :: countedChoices schema := by
  obtain ⟨hLength, hSome⟩ := OptionSchema.choices_of_values h
  rw [countedChoices, List.map_cons, List.takeWhile_cons_of_pos (by simpa using hSome), hLength]
  rfl

theorem countedChoices_stop (h : s.values? = none) : countedChoices (s :: schema) = [] := by
  rw [countedChoices, List.map_cons, OptionSchema.choices_of_none h]
  rfl

theorem length_extendTuples (hTuples : tuples ≠ []) (values : List Value) :
    (extendTuples tuples values).length = tuples.length * (1 + values.length) := by
  rw [extendTuples, if_neg (by simpa using hTuples), List.length_append, List.length_flatMap]
  simp only [List.length_map, List.map_const', List.sum_replicate_nat]
  rw [Nat.mul_add, Nat.mul_one]

theorem length_optionTuples (hTuples : tuples ≠ []) :
    (optionTuples tuples schema).length =
      tuples.length * ((countedChoices schema).map (1 + ·)).prod := by
  induction schema generalizing tuples with
  | nil => exact (Nat.mul_one _).symm
  | cons s schema ih =>
    rw [optionTuples]
    cases hValues : s.values? with
    | none =>
      rw [countedChoices_stop hValues]
      exact (Nat.mul_one _).symm
    | some values =>
      rw [countedChoices_cons hValues, List.map_cons, List.prod_cons, ← Nat.mul_assoc,
        ← length_extendTuples hTuples]
      exact ih (extendTuples_ne_nil hTuples)

theorem length_optionTuples_nil (schema : List OptionSchema) :
    ([] :: optionTuples [] schema).length = candidatesOfChoices (countedChoices schema) := by
  cases schema with
  | nil => rfl
  | cons s schema =>
    rw [optionTuples, List.length_cons]
    cases hValues : s.values? with
    | none =>
      rw [countedChoices_stop hValues]
      rfl
    | some values =>
      have hNonempty : values.map ([·]) ≠ [] :=
        mt List.map_eq_nil_iff.mp (OptionSchema.values?_ne_nil hValues)
      have hLength :
          (optionTuples (values.map ([·])) schema).length =
            values.length * ((countedChoices schema).map (1 + ·)).prod := by
        rw [length_optionTuples hNonempty, List.length_map]
      rw [countedChoices_cons hValues, candidatesOfChoices, Nat.add_comm, ← hLength]
      rfl

/-! ## The order of tuples -/

theorem prefix_extendTuples (tuples : List (List Value)) (values : List Value) :
    tuples <+: extendTuples tuples values := by
  rw [extendTuples]
  split
  · rename_i hEmpty
    rw [List.isEmpty_iff.mp hEmpty]
    exact List.nil_prefix
  · exact List.prefix_append _ _

theorem prefix_optionTuples (tuples : List (List Value)) (schema : List OptionSchema) :
    tuples <+: optionTuples tuples schema := by
  induction schema generalizing tuples with
  | nil => exact List.prefix_refl _
  | cons s schema ih =>
    rw [optionTuples]
    split
    · exact List.prefix_refl _
    · exact (prefix_extendTuples _ _).trans (ih _)

theorem optionTuples_prefix_append (tuples : List (List Value)) (schema more : List OptionSchema) :
    optionTuples tuples schema <+: optionTuples tuples (schema ++ more) := by
  induction schema generalizing tuples with
  | nil => exact prefix_optionTuples tuples more
  | cons s schema ih =>
    rw [List.cons_append, optionTuples, optionTuples]
    split
    · exact List.prefix_refl _
    · exact ih _

theorem ne_nil_of_mem_extendTuples {t : List Value} (hTuples : ∀ t ∈ tuples, t ≠ [])
    (h : t ∈ extendTuples tuples values) : t ≠ [] := by
  rw [extendTuples] at h
  split at h
  · obtain ⟨v, -, rfl⟩ := List.mem_map.mp h
    exact List.cons_ne_nil _ _
  · rcases List.mem_append.mp h with hOld | hNew
    · exact hTuples t hOld
    · obtain ⟨t₀, -, hLonger⟩ := List.mem_flatMap.mp hNew
      obtain ⟨v, -, rfl⟩ := List.mem_map.mp hLonger
      exact List.append_ne_nil_of_right_ne_nil _ (List.cons_ne_nil _ _)

theorem ne_nil_of_mem_optionTuples {t : List Value} (hTuples : ∀ t ∈ tuples, t ≠ [])
    (h : t ∈ optionTuples tuples schema) : t ≠ [] := by
  induction schema generalizing tuples with
  | nil => exact hTuples t h
  | cons s schema ih =>
    rw [optionTuples] at h
    split at h
    · exact hTuples t h
    · exact ih (fun _ => ne_nil_of_mem_extendTuples hTuples) h

/-! ## Tiers -/

theorem Candidate.tier_number_iff (c : Candidate) :
    (c.tier.number = 1 ↔ c.options.length = 0) ∧ (c.tier.number = 2 ↔ c.options.length = 1) ∧
      (c.tier.number = 3 ↔ 2 ≤ c.options.length) := by
  rw [Candidate.tier]
  match c.options.length with
  | 0 => decide
  | 1 => decide
  | n + 2 => simp [Tier.ofCount, Tier.number]

/-- The list of candidates has the length that the choices of the schema call for. It starts with
the bare severity, the only candidate of the first tier; the others are of the second or third tier
by the number of their options. More positions leave it in its place. -/
theorem candidate_list_shape (m : RuleMetadata) :
    (RuleEntry.ofMetadata m).candidates.length =
      candidatesOfChoices (countedChoices m.schema) ∧
    (∃ rest, (RuleEntry.ofMetadata m).candidates = ⟨m.id, []⟩ :: rest ∧
      ∀ c ∈ rest, c.tier.number ≠ 1) ∧
    (∀ c ∈ (RuleEntry.ofMetadata m).candidates,
      (c.tier.number = 1 ↔ c.options.length = 0) ∧ (c.tier.number = 2 ↔ c.options.length = 1) ∧
        (c.tier.number = 3 ↔ 2 ≤ c.options.length)) ∧
    ∀ more, (RuleEntry.ofMetadata m).candidates <+:
      (RuleEntry.ofMetadata { m with schema := m.schema ++ more }).candidates := by
  refine ⟨?_, ⟨(optionTuples [] m.schema).map (⟨m.id, ·⟩), rfl, ?_⟩, ?_, ?_⟩
  · rw [RuleEntry.ofMetadata, List.length_map]
    exact length_optionTuples_nil m.schema
  · intro c hc hFirst
    obtain ⟨options, hOptions, rfl⟩ := List.mem_map.mp hc
    have hEmpty := List.length_eq_zero_iff.mp ((Candidate.tier_number_iff _).1.mp hFirst)
    exact ne_nil_of_mem_optionTuples (fun _ ht => absurd ht List.not_mem_nil) hOptions hEmpty
  · intro c _
    exact c.tier_number_iff
  · intro more
    apply List.IsPrefix.map
    exact (List.prefix_cons_inj []).mpr (optionTuples_prefix_append [] m.schema more)

/-- Two values, then two choices for the one property that can be listed, then no choices. -/
theorem candidate_list_shape_quotes :
    let schema : List OptionSchema :=
      [.enumeration [.string "double", .string "single"],
        .object [⟨"avoidEscape", .boolean⟩, ⟨"ignored", .anything⟩], .anything "names"]
    let m : RuleMetadata :=
      { id := "quotes", name := "", description := "", category := .style, schema := schema }
    let c : Candidate := ⟨"quotes", [.string "single", .object [("avoidEscape", .bool false)]]⟩
    (RuleEntry.ofMetadata m).candidates.length = 1 + 2 * (1 + 2) ∧
      c ∈ (RuleEntry.ofMetadata m).candidates ∧ c.tier.number = 3 := by
  intro schema m c
  obtain ⟨hLength, -, hTiers, -⟩ := candidate_list_shape m
  have hc : c ∈ (RuleEntry.ofMetadata m).candidates := by decide
  exact ⟨hLength, hc, (hTiers c hc).2.2.mpr (by decide)⟩

end RuleScout
