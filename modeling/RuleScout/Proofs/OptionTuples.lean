import Mathlib.Data.List.Forall2
import Mathlib.Data.List.TakeWhile
import RuleScout.Discovery.Candidate

/-!
# The options that are tried

The walk over a schema appends values of each position that it reaches to all tuples made so far,
also to those that stop at an earlier position. So the options of a candidate are values of the
first position and of some of the later ones, in the order of the positions. Every choice of values
for the first positions is among them, and with at most two positions there is nothing else.
-/

set_option autoImplicit false

namespace RuleScout

/-! ## Positions that can be listed are not empty -/

namespace PropertySchema

theorem candidateValues_ne_nil {p : PropertySchema} {values : List Value}
    (h : p.candidateValues = some values) : values ≠ [] := by
  obtain ⟨name, kind⟩ := p
  cases kind with
  | enumeration all =>
    cases all with
    | nil => cases h
    | cons v vs =>
      cases h
      exact List.cons_ne_nil v vs
  | boolean =>
    cases h
    exact List.cons_ne_nil _ _
  | anything => cases h

end PropertySchema

theorem extendObjects_ne_nil {objects : List (List (String × Value))} {name : String}
    {values : List Value} (hObjects : objects ≠ []) (hValues : values ≠ []) :
    extendObjects objects name values ≠ [] := by
  obtain ⟨fields, hFields⟩ := List.exists_mem_of_ne_nil _ hObjects
  obtain ⟨v, hv⟩ := List.exists_mem_of_ne_nil _ hValues
  exact List.ne_nil_of_mem (List.mem_flatMap.mpr ⟨fields, hFields, List.mem_map_of_mem hv⟩)

theorem foldl_extendObjects_ne_nil {listed : List (String × List Value)}
    (hListed : ∀ p ∈ listed, p.2 ≠ []) {objects : List (List (String × Value))}
    (hObjects : objects ≠ []) :
    listed.foldl (fun objects (name, values) => extendObjects objects name values) objects ≠
      [] := by
  induction listed generalizing objects with
  | nil => exact hObjects
  | cons p listed ih =>
    have hHere : extendObjects objects p.1 p.2 ≠ [] :=
      extendObjects_ne_nil hObjects (hListed p List.mem_cons_self)
    exact ih (fun q hq => hListed q (List.mem_cons_of_mem p hq)) hHere

theorem listedProperties_ne_nil {properties : List PropertySchema} :
    ∀ p ∈ listedProperties properties, p.2 ≠ [] := by
  intro p hp
  obtain ⟨q, -, hq⟩ := List.mem_filterMap.mp hp
  obtain ⟨values, hValues, rfl⟩ := Option.map_eq_some_iff.mp hq
  exact q.candidateValues_ne_nil hValues

theorem OptionSchema.values?_ne_nil {s : OptionSchema} {values : List Value}
    (h : s.values? = some values) : values ≠ [] := by
  cases s with
  | enumeration all =>
    cases all with
    | nil => cases h
    | cons v vs =>
      cases h
      exact List.cons_ne_nil v vs
  | object properties =>
    rw [values?, objectValues] at h
    split at h
    · cases h
    · cases h
      rw [Ne, List.map_eq_nil_iff]
      exact foldl_extendObjects_ne_nil listedProperties_ne_nil (List.cons_ne_nil _ _)
  | anything description => cases h

/-! ## Values of positions -/

/-- A value that is tried at a position. -/
def Listed (v : Value) (s : OptionSchema) : Prop := ∃ values, s.values? = some values ∧ v ∈ values

/-- The positions that the walk over a schema reaches. -/
def reached (schema : List OptionSchema) : List OptionSchema :=
  schema.takeWhile (·.values?.isSome)

/-- Values of some of the positions, in the order of the positions. -/
inductive Drawn : List OptionSchema → List Value → Prop where
  | done : Drawn [] []
  | skip {s : OptionSchema} {positions : List OptionSchema} {vs : List Value}
      (hRest : Drawn positions vs) : Drawn (s :: positions) vs
  | take {s : OptionSchema} {positions : List OptionSchema} {v : Value} {vs : List Value}
      (hFirst : Listed v s) (hRest : Drawn positions vs) : Drawn (s :: positions) (v :: vs)

/-- Options to try: none, or a value of the first position and values of some later ones. -/
inductive Tried : List OptionSchema → List Value → Prop where
  | bare (positions : List OptionSchema) : Tried positions []
  | options {s : OptionSchema} {positions : List OptionSchema} {v : Value} {vs : List Value}
      (hFirst : Listed v s) (hRest : Drawn positions vs) : Tried (s :: positions) (v :: vs)

/-- Values of the first positions, one for each. -/
def IsOptionPrefix (schema : List OptionSchema) (options : List Value) : Prop :=
  List.Forall₂ Listed options (schema.take options.length)

variable {s : OptionSchema} {schema positions : List OptionSchema} {values options : List Value}
  {tuples : List (List Value)} {t : List Value} {v : Value}

theorem listed_iff (h : s.values? = some values) : Listed v s ↔ v ∈ values := by
  constructor
  · rintro ⟨others, hOthers, hv⟩
    cases h.symm.trans hOthers
    exact hv
  · exact fun hv => ⟨values, h, hv⟩

theorem reached_cons (h : s.values? = some values) :
    reached (s :: schema) = s :: reached schema := by
  rw [reached, List.takeWhile_cons, h]
  rfl

theorem Listed.reached_cons (h : Listed v s) : reached (s :: schema) = s :: reached schema := by
  obtain ⟨values, hValues, -⟩ := h
  exact RuleScout.reached_cons hValues

theorem Drawn.nil (positions : List OptionSchema) : Drawn positions [] := by
  induction positions with
  | nil => exact .done
  | cons s positions ih => exact .skip ih

theorem Drawn.length_le (h : Drawn positions options) : options.length ≤ positions.length := by
  induction h with
  | done => exact Nat.le_refl 0
  | skip _ ih => exact Nat.le_succ_of_le ih
  | take _ _ ih => exact Nat.succ_le_succ ih

theorem Tried.length_le (h : Tried positions options) : options.length ≤ positions.length := by
  cases h with
  | bare => exact Nat.zero_le _
  | options _ hRest => exact Nat.succ_le_succ hRest.length_le

/-! ## Tuples -/

theorem mem_extendTuples_iff (hTuples : tuples ≠ []) :
    t ∈ extendTuples tuples values ↔ t ∈ tuples ∨ ∃ t₀ ∈ tuples, ∃ v ∈ values, t₀ ++ [v] = t := by
  rw [extendTuples, if_neg (by simpa using hTuples), List.mem_append, List.mem_flatMap]
  simp only [List.mem_map]

theorem extendTuples_ne_nil (hTuples : tuples ≠ []) : extendTuples tuples values ≠ [] := by
  obtain ⟨t, ht⟩ := List.exists_mem_of_ne_nil _ hTuples
  exact List.ne_nil_of_mem ((mem_extendTuples_iff hTuples).mpr (.inl ht))

/-- Some tuple, followed by values of some of the positions. -/
def Extended (tuples : List (List Value)) (positions : List OptionSchema) (t : List Value) : Prop :=
  ∃ t₀ ∈ tuples, ∃ added, Drawn positions added ∧ t₀ ++ added = t

theorem extended_nil : Extended tuples [] t ↔ t ∈ tuples := by
  constructor
  · rintro ⟨t₀, ht₀, _, ⟨⟩, rfl⟩
    rwa [List.append_nil]
  · exact fun ht => ⟨t, ht, [], .done, List.append_nil t⟩

theorem extended_cons (hTuples : tuples ≠ []) (hValues : s.values? = some values) :
    Extended tuples (s :: positions) t ↔ Extended (extendTuples tuples values) positions t := by
  constructor
  · rintro ⟨t₀, ht₀, added, hAdded, rfl⟩
    cases hAdded with
    | skip hRest => exact ⟨t₀, (mem_extendTuples_iff hTuples).mpr (.inl ht₀), added, hRest, rfl⟩
    | @take _ _ v vs hFirst hRest =>
      have hv := (listed_iff hValues).mp hFirst
      have hLonger := (mem_extendTuples_iff hTuples).mpr (.inr ⟨t₀, ht₀, v, hv, rfl⟩)
      refine ⟨t₀ ++ [v], hLonger, vs, hRest, ?_⟩
      rw [List.append_assoc, List.singleton_append]
  · rintro ⟨t₁, ht₁, added, hAdded, rfl⟩
    rcases (mem_extendTuples_iff hTuples).mp ht₁ with ht₁ | ⟨t₀, ht₀, v, hv, rfl⟩
    · exact ⟨t₁, ht₁, added, .skip hAdded, rfl⟩
    · refine ⟨t₀, ht₀, v :: added, .take ((listed_iff hValues).mpr hv) hAdded, ?_⟩
      rw [List.append_assoc, List.singleton_append]

theorem mem_optionTuples_iff (hTuples : tuples ≠ []) :
    t ∈ optionTuples tuples schema ↔ Extended tuples (reached schema) t := by
  induction schema generalizing tuples with
  | nil => exact extended_nil.symm
  | cons s schema ih =>
    rw [optionTuples]
    cases hValues : s.values? with
    | none =>
      rw [reached, List.takeWhile_cons, hValues]
      exact extended_nil.symm
    | some values =>
      rw [reached_cons hValues, extended_cons hTuples hValues]
      exact ih (extendTuples_ne_nil hTuples)

theorem tried_nil : Tried [] t ↔ t = [] := by
  constructor
  · rintro ⟨⟩
    rfl
  · rintro rfl
    exact .bare []

/-- The walk starts the tuples at its first position, and so that one is never skipped. -/
theorem tried_iff : Tried (reached schema) t ↔ t = [] ∨ t ∈ optionTuples [] schema := by
  cases schema with
  | nil => exact tried_nil.trans (or_iff_left List.not_mem_nil).symm
  | cons s schema =>
    rw [optionTuples]
    cases hValues : s.values? with
    | none =>
      rw [reached, List.takeWhile_cons, hValues]
      exact tried_nil.trans (or_iff_left List.not_mem_nil).symm
    | some values =>
      have hNonempty : values.map ([·]) ≠ [] :=
        mt List.map_eq_nil_iff.mp (OptionSchema.values?_ne_nil hValues)
      rw [reached_cons hValues]
      change _ ↔ t = [] ∨ t ∈ optionTuples (values.map ([·])) schema
      rw [mem_optionTuples_iff hNonempty]
      constructor
      · rintro (_ | ⟨hFirst, hRest⟩)
        · exact .inl rfl
        · have hv := (listed_iff hValues).mp hFirst
          exact .inr ⟨_, List.mem_map_of_mem hv, _, hRest, rfl⟩
      · rintro (rfl | ⟨t₀, ht₀, added, hAdded, rfl⟩)
        · exact .bare _
        · obtain ⟨v, hv, rfl⟩ := List.mem_map.mp ht₀
          exact .options ((listed_iff hValues).mpr hv) hAdded

theorem RuleEntry.mem_candidates_iff {m : RuleMetadata} {c : Candidate} :
    c ∈ (ofMetadata m).candidates ↔ c.rule = m.id ∧ Tried (reached m.schema) c.options := by
  rw [tried_iff, ← List.mem_cons, ofMetadata, List.mem_map]
  constructor
  · rintro ⟨options, hOptions, rfl⟩
    exact ⟨rfl, hOptions⟩
  · rintro ⟨hRule, hOptions⟩
    refine ⟨c.options, hOptions, ?_⟩
    rw [← hRule]

/-! ## Option prefixes -/

theorem isOptionPrefix_cons :
    IsOptionPrefix (s :: schema) (v :: options) ↔ Listed v s ∧ IsOptionPrefix schema options :=
  List.forall₂_cons

theorem IsOptionPrefix.drawn (h : IsOptionPrefix schema options) :
    Drawn (reached schema) options := by
  induction options generalizing schema with
  | nil => exact .nil _
  | cons v options ih =>
    cases schema with
    | nil => cases h
    | cons s schema =>
      obtain ⟨hFirst, hRest⟩ := isOptionPrefix_cons.mp h
      rw [hFirst.reached_cons]
      exact .take hFirst (ih hRest)

theorem IsOptionPrefix.tried (h : IsOptionPrefix schema options) :
    Tried (reached schema) options := by
  cases options with
  | nil => exact .bare _
  | cons v options =>
    cases schema with
    | nil => cases h
    | cons s schema =>
      obtain ⟨hFirst, hRest⟩ := isOptionPrefix_cons.mp h
      rw [hFirst.reached_cons]
      exact .options hFirst hRest.drawn

theorem prefix_of_reached (h : IsOptionPrefix (reached schema) options) :
    IsOptionPrefix schema options := by
  obtain ⟨beyond, hSchema⟩ := List.takeWhile_prefix (l := schema) (·.values?.isSome)
  have hLength : options.length ≤ (reached schema).length := by
    have hTaken := h.length_eq
    rw [List.length_take] at hTaken
    omega
  have hTake : schema.take options.length = (reached schema).take options.length := by
    conv_lhs => rw [← hSchema]
    exact List.take_append_of_le_length hLength
  rwa [IsOptionPrefix, hTake]

/-- With two positions only the last can be left out. -/
theorem prefix_of_tried (hShort : positions.length ≤ 2) (h : Tried positions options) :
    IsOptionPrefix positions options := by
  cases h with
  | bare => exact .nil
  | @options s later v vs hFirst hRest =>
    refine .cons hFirst ?_
    cases hRest with
    | done => exact .nil
    | @skip _ beyond _ hBeyond =>
      obtain rfl : beyond = [] := by
        simpa using hShort
      cases hBeyond
      exact .nil
    | @take _ beyond _ _ hSecond hBeyond =>
      obtain rfl : beyond = [] := by
        simpa using hShort
      cases hBeyond
      exact .cons hSecond .nil

/-- The options that are tried, against the option prefixes: none is longer than the schema, all
prefixes are tried, and nothing else with at most two positions. From three positions on one in
between can be left out, and the value behind it moves up. -/
theorem candidates_of_schema (m : RuleMetadata) :
    (∀ c, c ∈ (RuleEntry.ofMetadata m).candidates ↔
      c.rule = m.id ∧ Tried (reached m.schema) c.options) ∧
    (∀ c ∈ (RuleEntry.ofMetadata m).candidates, c.options.length ≤ (reached m.schema).length) ∧
    (∀ options, IsOptionPrefix m.schema options →
      ⟨m.id, options⟩ ∈ (RuleEntry.ofMetadata m).candidates) ∧
    ((reached m.schema).length ≤ 2 →
      ∀ c ∈ (RuleEntry.ofMetadata m).candidates, IsOptionPrefix m.schema c.options) := by
  have hCandidates (c : Candidate) := RuleEntry.mem_candidates_iff (m := m) (c := c)
  refine ⟨hCandidates, ?_, ?_, ?_⟩
  · intro c hc
    exact ((hCandidates c).mp hc).2.length_le
  · intro options hOptions
    exact (hCandidates _).mpr ⟨rfl, hOptions.tried⟩
  · intro hShort c hc
    exact prefix_of_reached (prefix_of_tried hShort ((hCandidates c).mp hc).2)

theorem candidates_of_schema_quotes :
    let schema : List OptionSchema :=
      [.enumeration [.string "double", .string "single"], .object [⟨"avoidEscape", .boolean⟩]]
    let m : RuleMetadata :=
      { id := "quotes", name := "", description := "", category := .style, schema := schema }
    let options : List Value := [.string "single", .object [("avoidEscape", .bool false)]]
    (reached m.schema).length ≤ 2 ∧ IsOptionPrefix m.schema options ∧
      ⟨m.id, options⟩ ∈ (RuleEntry.ofMetadata m).candidates ∧
      ∀ c ∈ (RuleEntry.ofMetadata m).candidates, IsOptionPrefix m.schema c.options := by
  intro schema m options
  obtain ⟨-, -, hPrefixes, hShort⟩ := candidates_of_schema m
  have hOptions : IsOptionPrefix m.schema options :=
    .cons ⟨_, rfl, by decide⟩ (.cons ⟨_, rfl, by decide⟩ .nil)
  exact ⟨by decide, hOptions, hPrefixes options hOptions, hShort (by decide)⟩

/-- The value of the third position at the place of the second. -/
theorem candidates_of_schema_skipped :
    let schema : List OptionSchema :=
      [.enumeration [.string "a"], .enumeration [.string "b"], .enumeration [.string "c"]]
    let m : RuleMetadata :=
      { id := "r", name := "", description := "", category := .style, schema := schema }
    let c : Candidate := ⟨"r", [.string "a", .string "c"]⟩
    c ∈ (RuleEntry.ofMetadata m).candidates ∧ ¬IsOptionPrefix m.schema c.options := by
  intro schema m c
  refine ⟨by decide, ?_⟩
  rintro (_ | ⟨-, _ | ⟨hSecond, -⟩⟩)
  obtain ⟨values, hValues, hc⟩ := hSecond
  cases hValues
  revert hc
  decide

end RuleScout
