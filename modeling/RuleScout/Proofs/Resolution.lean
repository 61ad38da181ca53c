import Mathlib.Data.List.Nodup
import RuleScout.Discovery.Resolution
import RuleScout.Proofs.Survivors

/-!
# Resolution rule by rule

Although the settings are put together in layers, what a rule gets depends on its own clean
candidates alone: no layer overwrites or drops what another one has set. The lone survivor is no
exception to the order of preference, so taking survivors away does not move the choice as long
as the chosen one stays.
-/

set_option autoImplicit false

namespace RuleScout

/-! ## The preferred candidate -/

/-- The candidate to prefer: the first with exactly one option, or else with more, or else
without. -/
def preferred (cs : List Candidate) : Option Candidate :=
  (cs.find? (·.options.length = 1)).or <|
    (cs.find? (2 ≤ ·.options.length)).or <| cs.find? (·.options.length = 0)

theorem find?_tier (cs : List Candidate) :
    cs.find? (·.tier = .singleOption) = cs.find? (·.options.length = 1) ∧
      cs.find? (·.tier = .multiOption) = cs.find? (2 ≤ ·.options.length) ∧
      cs.find? (·.tier = .severityOnly) = cs.find? (·.options.length = 0) := by
  have hTier (c : Candidate) : (c.tier = .singleOption ↔ c.options.length = 1) ∧
      (c.tier = .multiOption ↔ 2 ≤ c.options.length) ∧
      (c.tier = .severityOnly ↔ c.options.length = 0) := by
    obtain ⟨rule, options⟩ := c
    match options with
    | [] => simp [Candidate.tier, Tier.ofCount]
    | [_] => simp [Candidate.tier, Tier.ofCount]
    | _ :: _ :: _ => simp [Candidate.tier, Tier.ofCount]
  refine ⟨?_, ?_, ?_⟩
  · exact congrArg (cs.find? ·) (funext fun c => decide_eq_decide.mpr (hTier c).1)
  · exact congrArg (cs.find? ·) (funext fun c => decide_eq_decide.mpr (hTier c).2.1)
  · exact congrArg (cs.find? ·) (funext fun c => decide_eq_decide.mpr (hTier c).2.2)

theorem preferred_singleton (c : Candidate) : preferred [c] = some c := by
  obtain ⟨rule, options⟩ := c
  match options with
  | [] => simp [preferred]
  | [_] => simp [preferred]
  | _ :: _ :: _ => simp [preferred]

theorem preferred_eq_none_iff (cs : List Candidate) : preferred cs = none ↔ cs = [] := by
  constructor
  · intro h
    rw [preferred, Option.or_eq_none_iff, Option.or_eq_none_iff, List.find?_eq_none,
      List.find?_eq_none, List.find?_eq_none] at h
    obtain ⟨hOne, hMore, hNone⟩ := h
    apply List.eq_nil_iff_forall_not_mem.mpr
    intro c hc
    have h1 := hOne c hc
    have h2 := hMore c hc
    have h0 := hNone c hc
    simp only [decide_eq_true_eq] at h1 h2 h0
    omega
  · intro h
    rw [h]
    rfl

theorem mem_of_preferred {cs : List Candidate} {c : Candidate} (h : preferred cs = some c) :
    c ∈ cs := by
  rw [preferred, Option.or_eq_some_iff, Option.or_eq_some_iff] at h
  rcases h with h | ⟨-, h | ⟨-, h⟩⟩
  · exact List.mem_of_find?_eq_some h
  · exact List.mem_of_find?_eq_some h
  · exact List.mem_of_find?_eq_some h

theorem find?_filter_of_kept {α : Type} {p q : α → Bool} {l : List α} {a : α}
    (hFound : l.find? q = some a) (hKept : p a = true) : (l.filter p).find? q = some a := by
  obtain ⟨hq, front, back, hl, hFront⟩ := List.find?_eq_some_iff_append.mp hFound
  rw [hl, List.filter_append, List.filter_cons_of_pos hKept]
  apply List.find?_eq_some_iff_append.mpr
  refine ⟨hq, front.filter p, back.filter p, rfl, ?_⟩
  intro b hb
  exact hFront b (List.mem_filter.mp hb).1

/-- Candidates may fall away; the preferred one stays preferred if it is not among them. -/
theorem preferred_filter {cs : List Candidate} {c : Candidate} {p : Candidate → Bool}
    (hChosen : preferred cs = some c) (hKept : p c = true) :
    preferred (cs.filter p) = some c := by
  rw [preferred, Option.or_eq_some_iff, Option.or_eq_some_iff] at hChosen ⊢
  rcases hChosen with hOne | ⟨hOne, hMore | ⟨hMore, hBare⟩⟩
  · exact .inl (find?_filter_of_kept hOne hKept)
  · exact .inr ⟨List.filter_sublist.find?_eq_none hOne, .inl (find?_filter_of_kept hMore hKept)⟩
  · exact .inr ⟨List.filter_sublist.find?_eq_none hOne,
      .inr ⟨List.filter_sublist.find?_eq_none hMore, find?_filter_of_kept hBare hKept⟩⟩

/-! ## Choosing -/

theorem select_of_several {cs : List Candidate} (hSeveral : ∀ c, cs ≠ [c]) :
    select cs =
      ((cs.find? (·.options.length = 1)).map (·, Decision.singleOption)).or
        (((cs.find? (2 ≤ ·.options.length)).map (·, Decision.multiOption)).or
          ((cs.find? (·.options.length = 0)).map (·, Decision.default))) := by
  obtain ⟨hOne, hMore, hBare⟩ := find?_tier cs
  unfold select
  split
  · exact absurd rfl (hSeveral _)
  · simp only [hOne, hMore, hBare, Option.orElse_eq_orElse, Option.orElse_eq_or]

/-- A lone survivor is taken for another reason, but it is the preferred one all the same. -/
theorem select_candidate (cs : List Candidate) : (select cs).map (·.1) = preferred cs := by
  by_cases hLone : ∃ c, cs = [c]
  · obtain ⟨c, rfl⟩ := hLone
    rw [preferred_singleton]
    rfl
  · rw [select_of_several fun c hEq => hLone ⟨c, hEq⟩, Option.map_or, Option.map_or,
      Option.map_map, Option.map_map, Option.map_map, preferred]
    simp only [Function.comp_def, Option.map_id']

/-- A survivor is never taken as a last resort. -/
theorem layer_of_select {cs : List Candidate} {c : Candidate} {d : Decision}
    (h : select cs = some (c, d)) : 0 < d.layer := by
  by_cases hLone : ∃ c, cs = [c]
  · obtain ⟨a, rfl⟩ := hLone
    obtain ⟨-, rfl⟩ := Prod.mk.inj (Option.some.inj h)
    decide
  · rw [select_of_several fun c hEq => hLone ⟨c, hEq⟩, Option.or_eq_some_iff,
      Option.or_eq_some_iff] at h
    have hFirm {o : Option Candidate} {why : Decision} (hWhy : 0 < why.layer)
        (hMap : o.map (·, why) = some (c, d)) : 0 < d.layer := by
      obtain ⟨a, -, hEq⟩ := Option.map_eq_some_iff.mp hMap
      rw [← (Prod.mk.inj hEq).2]
      exact hWhy
    rcases h with h | ⟨-, h | ⟨-, h⟩⟩
    · exact hFirm (by decide) h
    · exact hFirm (by decide) h
    · exact hFirm (by decide) h

theorem select_eq_none_iff (cs : List Candidate) : select cs = none ↔ cs = [] := by
  rw [← preferred_eq_none_iff, ← select_candidate, Option.map_eq_none_iff]

theorem setting_choose (cs : List Candidate) (recommended : Bool) :
    (choose cs recommended).1 =
      ((preferred cs).map Candidate.setting).getD (fallback recommended).1 := by
  rw [choose, ← select_candidate]
  cases select cs with
  | none => rfl
  | some x => rfl

theorem decision_choose (cs : List Candidate) (recommended : Bool) :
    (choose cs recommended).2 = .forcedError ↔ cs = [] ∧ recommended = true := by
  rw [← select_eq_none_iff, choose]
  cases hSelect : select cs with
  | none => cases recommended <;> simp [fallback]
  | some x =>
    obtain ⟨c, d⟩ := x
    have hLayer := layer_of_select hSelect
    constructor
    · intro hForced
      simp only at hForced
      rw [hForced] at hLayer
      cases hLayer
    · rintro ⟨hNone, -⟩
      cases hNone

/-! ## Putting the layers together -/

namespace Resolution

theorem layer_lt (d : Decision) : d.layer < Decision.layer .unambiguous + 1 := by
  cases d <;> decide

/-- A layer sets the rules that are decided in it and leaves the others as they are. -/
theorem get?_mergeLayer (ds : List RuleDecision) (hDistinct : (ds.map (·.rule)).Nodup)
    (m : NameMap Setting) (n : Nat) (d : RuleDecision) (hd : d ∈ ds) :
    (mergeLayer ds m n).get? d.rule =
      if d.decision.layer = n then some d.setting else m.get? d.rule := by
  rw [mergeLayer]
  by_cases hLayer : d.decision.layer = n
  · have hOwn : d ∈ ds.filter (·.decision.layer = n) :=
      List.mem_filter.mpr ⟨hd, decide_eq_true hLayer⟩
    have hSub := (List.filter_sublist (p := (·.decision.layer = n)) (l := ds)).map (·.rule)
    rw [if_pos hLayer]
    exact NameMap.get?_foldl_insert_of_mem RuleDecision.rule RuleDecision.setting _ m
      (hDistinct.sublist hSub) d hOwn
  · rw [if_neg hLayer]
    apply NameMap.get?_foldl_insert_of_absent RuleDecision.rule RuleDecision.setting
    intro hMem
    obtain ⟨other, hOther, hRule⟩ := List.mem_map.mp hMem
    obtain ⟨hOtherMem, hOtherLayer⟩ := List.mem_filter.mp hOther
    have hSame := List.inj_on_of_nodup_map hDistinct hOtherMem hd hRule
    subst hSame
    exact hLayer (of_decide_eq_true hOtherLayer)

/-- Behind the layers below `n` exactly the rules decided in one of them are set. -/
theorem get?_layers (ds : List RuleDecision) (hDistinct : (ds.map (·.rule)).Nodup) (n : Nat)
    (d : RuleDecision) (hd : d ∈ ds) :
    ((List.range n).foldl (mergeLayer ds) .empty).get? d.rule =
      if d.decision.layer < n then some d.setting else none := by
  induction n with
  | zero => simp
  | succ n ih =>
    rw [List.range_succ, List.foldl_append, List.foldl_cons, List.foldl_nil,
      get?_mergeLayer ds hDistinct _ n d hd, ih]
    by_cases hLayer : d.decision.layer = n
    · rw [if_pos hLayer, if_pos (by omega)]
    · by_cases hBelow : d.decision.layer < n
      · rw [if_neg hLayer, if_pos hBelow, if_pos (by omega)]
      · rw [if_neg hLayer, if_neg hBelow, if_neg (by omega)]

theorem get?_merge (ds : List RuleDecision) (hDistinct : (ds.map (·.rule)).Nodup)
    (d : RuleDecision) (hd : d ∈ ds) : (merge ds).get? d.rule = some d.setting := by
  rw [merge, get?_layers ds hDistinct _ d hd, if_pos (layer_lt d.decision)]

theorem mem_rules_of_contains_layers (ds : List RuleDecision) (layers : List Nat)
    (m : NameMap Setting) (id : String)
    (h : (layers.foldl (mergeLayer ds) m).contains id = true) :
    m.contains id = true ∨ id ∈ ds.map (·.rule) := by
  induction layers generalizing m with
  | nil => exact .inl h
  | cons n ns ih =>
    rcases ih (mergeLayer ds m n) h with hStep | hMem
    · rw [mergeLayer, NameMap.contains_foldl_insert_iff RuleDecision.rule RuleDecision.setting]
        at hStep
      rcases hStep with hStep | hStep
      · exact .inl hStep
      · have hSub := (List.filter_sublist (p := (·.decision.layer = n)) (l := ds)).map (·.rule)
        exact .inr (hSub.subset hStep)
    · exact .inr hMem

theorem contains_merge_iff (ds : List RuleDecision) (hDistinct : (ds.map (·.rule)).Nodup)
    (id : String) : (merge ds).contains id = true ↔ id ∈ ds.map (·.rule) := by
  constructor
  · intro h
    rcases mem_rules_of_contains_layers ds _ .empty id h with hEmpty | hMem
    · cases hEmpty
    · exact hMem
  · intro h
    obtain ⟨d, hd, rfl⟩ := List.mem_map.mp h
    exact (NameMap.contains_iff _ _).mpr ⟨d.setting, get?_merge ds hDistinct d hd⟩

/-! ## The decisions of a registry -/

/-- The decision about one rule, from its survivors. -/
def decisionOf (s : Survivors) (e : RuleEntry) : RuleDecision where
  rule := e.rule
  setting := (choose (s.get e.rule) e.recommended).1
  decision := (choose (s.get e.rule) e.recommended).2
  survivors := (s.get e.rule).length
  candidates := e.candidates.length

section

variable (s : Survivors) (registry : Registry)

theorem decisions_eq (hDistinct : registry.ids.Nodup) :
    (ofPartition (.ofSurvivors s registry) registry).decisions =
      registry.entries.map (decisionOf s) := by
  apply List.map_congr_left
  intro e he
  have hGet := Partition.get?_ofList_passing s registry hDistinct e.rule
    (List.mem_map_of_mem he)
  rw [decisionFor, hGet]
  rfl

theorem decisionRules_eq :
    (ofPartition (.ofSurvivors s registry) registry).decisions.map (·.rule) = registry.ids := by
  rw [ofPartition, List.map_map]
  rfl

theorem contains_rules_iff (hDistinct : registry.ids.Nodup) (id : String) :
    (ofPartition (.ofSurvivors s registry) registry).rules.contains id = true ↔
      id ∈ registry.ids := by
  have hRules := decisionRules_eq s registry
  rw [← hRules]
  exact contains_merge_iff _ (hRules ▸ hDistinct) id

theorem get?_rules_of_decision (hDistinct : registry.ids.Nodup) (d : RuleDecision)
    (hd : d ∈ (ofPartition (.ofSurvivors s registry) registry).decisions) :
    (ofPartition (.ofSurvivors s registry) registry).rules.get? d.rule = some d.setting :=
  get?_merge _ ((decisionRules_eq s registry).symm ▸ hDistinct) d hd

theorem get?_rules (hDistinct : registry.ids.Nodup) (e : RuleEntry) (he : e ∈ registry.entries) :
    (ofPartition (.ofSurvivors s registry) registry).rules.get? e.rule =
      some (choose (s.get e.rule) e.recommended).1 := by
  have hd : decisionOf s e ∈ (ofPartition (.ofSurvivors s registry) registry).decisions := by
    rw [decisions_eq s registry hDistinct]
    exact List.mem_map_of_mem he
  exact get?_rules_of_decision s registry hDistinct _ hd

end

end Resolution

/-! ## The reference -/

/-- The setting that the clean candidates of a rule call for: the only one, or else the
preferred one, which exists unless there is none at all. -/
def settingFor (clean : List Candidate) (recommended : Bool) : Setting :=
  match clean with
  | [] => if recommended then .error else .off
  | [only] => only.setting
  | first :: second :: rest => ((preferred (first :: second :: rest)).getD first).setting

theorem setting_choose_eq_settingFor (cs : List Candidate) (recommended : Bool) :
    (choose cs recommended).1 = settingFor cs recommended := by
  rw [setting_choose]
  match cs with
  | [] => cases recommended <;> rfl
  | [only] => rw [preferred_singleton]; rfl
  | first :: second :: rest =>
    rw [settingFor]
    cases hPreferred : preferred (first :: second :: rest) with
    | some c => rfl
    | none => cases (preferred_eq_none_iff _).mp hPreferred

/-- Whatever results come in, in whatever order and about whatever rules, every rule of the
registry is decided by its own clean candidates. -/
theorem resolution_by_rule (registry : Registry) (hDistinct : registry.ids.Nodup)
    (results : List TrialResult) :
    let p := Partition.ofSurvivors (.ofResults registry results) registry
    let r := Resolution.ofPartition p registry
    -- the rules are divided
    (∀ id, ¬ (p.failing.contains id = true ∧ id ∈ p.passing.map (·.1))) ∧
    (∀ id, p.failing.contains id = true ∨ id ∈ p.passing.map (·.1) ↔ id ∈ registry.ids) ∧
    (p.passing.map (·.1)).Sublist registry.ids ∧
    (∀ x ∈ p.passing, x.2 = cleanCandidates results x.1 ∧ x.2 ≠ []) ∧
    -- each of them is decided and set
    r.decisions.map (·.rule) = registry.ids ∧
    (∀ id, r.rules.contains id = true ↔ id ∈ registry.ids) ∧
    (∀ d ∈ r.decisions, r.rules.get? d.rule = some d.setting) ∧
    r.decisions.map (·.setting) =
      registry.entries.map fun e => settingFor (cleanCandidates results e.rule) e.recommended := by
  intro p r
  have hGet := Survivors.get_ofResults registry results
  have hFailing := (Survivors.ofResults registry results).contains_failing_iff registry
  have hPassing := Partition.mem_passingIds_iff (.ofResults registry results) registry
  refine ⟨?_, ?_, ?_, ?_, ?_, ?_, ?_, ?_⟩
  · rintro id ⟨hFails, hPasses⟩
    exact ((hPassing id).mp hPasses).2 ((hFailing id).mp hFails).2
  · intro id
    constructor
    · rintro (hFails | hPasses)
      · exact ((hFailing id).mp hFails).1
      · exact ((hPassing id).mp hPasses).1
    · intro hId
      by_cases hEmpty : (Survivors.ofResults registry results).get id = []
      · exact .inl ((hFailing id).mpr ⟨hId, hEmpty⟩)
      · exact .inr ((hPassing id).mpr ⟨hId, hEmpty⟩)
  · rw [Partition.passingIds_eq]
    exact List.filter_sublist
  · intro x hx
    obtain ⟨-, hSurvivors, hNonempty⟩ := (Partition.mem_passing_iff _ registry x).mp hx
    exact ⟨hSurvivors.trans (hGet x.1), hNonempty⟩
  · exact Resolution.decisionRules_eq _ registry
  · exact Resolution.contains_rules_iff _ registry hDistinct
  · exact Resolution.get?_rules_of_decision _ registry hDistinct
  · rw [Resolution.decisions_eq _ registry hDistinct, List.map_map]
    apply List.map_congr_left
    intro e _
    rw [← hGet, ← setting_choose_eq_settingFor]
    rfl

theorem resolution_by_rule_mixed :
    let registry : Registry := ⟨[⟨"words", false, []⟩, ⟨"marker", true, []⟩]⟩
    let results : List TrialResult :=
      [⟨⟨"ghost", []⟩, true⟩, ⟨⟨"words", [.string "b", .null]⟩, true⟩,
        ⟨⟨"words", [.string "a"]⟩, true⟩, ⟨⟨"marker", []⟩, false⟩]
    registry.ids.Nodup ∧
      (Resolution.ofPartition (.ofSurvivors (.ofResults registry results) registry)
        registry).decisions.map (·.setting) = [⟨.error, [.string "a"]⟩, .error] := by
  intro registry results
  have hDistinct : registry.ids.Nodup := by decide
  obtain ⟨-, -, -, -, -, -, -, hSettings⟩ := resolution_by_rule registry hDistinct results
  exact ⟨hDistinct, hSettings.trans (by decide)⟩

end RuleScout
