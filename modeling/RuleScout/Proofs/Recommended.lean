import RuleScout.Command.Lint
import RuleScout.Proofs.Discovery
import RuleScout.Rule.Builtin.Empty
import RuleScout.Rule.Builtin.Equality
import RuleScout.Rule.Builtin.Semi

/-!
# Building on the recommended configuration

A configuration that is to build on the recommended one leaves out what the recommended one says
in the same way. Merging puts back exactly what was left out, so nothing is lost. What is turned
off, set to another severity or given options is never left out, and neither is what the
recommended configuration does not know.
-/

set_option autoImplicit false

namespace RuleScout

namespace Catalog

theorem nodup_recommendedIds (catalog : Catalog) : catalog.recommendedIds.Nodup :=
  catalog.ids_nodup.sublist (List.filter_sublist.map Rule.id)

theorem mem_ids_of_recommended {catalog : Catalog} {id : String}
    (hId : id ∈ catalog.recommendedIds) : id ∈ catalog.ids :=
  (List.filter_sublist.map Rule.id).subset hId

theorem get?_recommendedConfig (catalog : Catalog) (id : String) :
    catalog.recommendedConfig.rules.get? id =
      if id ∈ catalog.recommendedIds then some .error else none := by
  have hIds : (catalog.recommendedIds.map (·, Setting.error)).map (·.1) = catalog.recommendedIds := by
    rw [List.map_map]
    exact List.map_id _
  split
  · rename_i hId
    have hMem : (id, Setting.error) ∈ catalog.recommendedIds.map (·, Setting.error) :=
      List.mem_map_of_mem hId
    apply NameMap.get?_ofList_of_mem _ _ _ hMem
    rw [hIds]
    exact catalog.nodup_recommendedIds
  · rename_i hId
    apply NameMap.get?_ofList_of_absent
    rwa [hIds]

theorem contains_recommendedConfig (catalog : Catalog) (id : String) :
    catalog.recommendedConfig.rules.contains id = decide (id ∈ catalog.recommendedIds) := by
  rw [NameMap.contains, get?_recommendedConfig]
  by_cases hId : id ∈ catalog.recommendedIds
  · simp [hId]
  · simp [hId]

end Catalog

namespace Config

/-- A parent that only has rules contributes nothing else. -/
theorem merge_rulesOnly (c : Config) (rules : NameMap Setting) :
    c.merge (({} : Config).withRules rules) = { c with rules := c.rules.orElse rules } := by
  obtain ⟨parent, plugins, env, dialect, files, own⟩ := c
  cases dialect with
  | none => cases files <;> rfl
  | some _ => cases files <;> rfl

theorem get?_extendFromRecommended (c : Config) (catalog : Catalog) (id : String) :
    (extendFromRecommended c catalog).rules.get? id =
      (c.rules.get? id).filter fun s => !(decide (id ∈ catalog.recommendedIds) && s = .error) := by
  rw [extendFromRecommended, NameMap.get?_filter, catalog.contains_recommendedConfig]

/-- Where a recommended rule was left out the recommended setting comes back, and it is the one
that was left out. -/
theorem rules_restored (catalog : Catalog) (c : Config)
    (hSet : ∀ id ∈ catalog.recommendedIds, c.rules.contains id = true) :
    (extendFromRecommended c catalog).rules.orElse catalog.recommendedConfig.rules = c.rules := by
  apply NameMap.ext_get?
  intro id
  rw [NameMap.get?_orElse, get?_extendFromRecommended, catalog.get?_recommendedConfig]
  by_cases hId : id ∈ catalog.recommendedIds
  · obtain ⟨s, hs⟩ := (NameMap.contains_iff _ _).mp (hSet id hId)
    rw [hs, Option.filter_some, if_pos hId]
    by_cases hDefault : s = .error
    · simp [hId, hDefault]
    · simp [hDefault]
  · cases hs : c.rules.get? id with
    | none => simp [hId]
    | some s => simp [hId]

theorem merge_extendFromRecommended (catalog : Catalog) (c : Config)
    (hSet : ∀ id ∈ catalog.recommendedIds, c.rules.contains id = true) :
    (extendFromRecommended c catalog).merge catalog.recommendedConfig =
      { c with parent := some recommendedName } := by
  rw [Catalog.recommendedConfig, merge_rulesOnly]
  exact congrArg (Config.mk _ _ _ _ _) (rules_restored catalog c hSet)

theorem extendFromRecommended_extended (catalog : Catalog) (c : Config) :
    extendFromRecommended (extendFromRecommended c catalog) catalog =
      extendFromRecommended c catalog := by
  apply congrArg (Config.mk _ _ _ _ _)
  apply NameMap.ext_get?
  intro id
  simp [extendFromRecommended, Option.filter_filter]

end Config

theorem Outcome.contains_recommended (catalog : Catalog) (corpus : Corpus) (base : Config)
    {id : String} (hId : id ∈ catalog.recommendedIds) :
    (plain catalog corpus base).config.rules.contains id = true :=
  (contains_plain_iff catalog corpus base id).mpr (Catalog.mem_ids_of_recommended hId)

/-- A configuration that sets every recommended rule, as discovered ones do, can be built on the
recommended configuration: loading gives it back, apart from the name of its parent. -/
theorem extended_config_restored (catalog : Catalog) (c : Config)
    (hSet : ∀ id ∈ catalog.recommendedIds, c.rules.contains id = true) :
    let e := extendFromRecommended c catalog
    e.parent = some "lintseed:recommended" ∧
      e.merge catalog.recommendedConfig = { c with parent := some "lintseed:recommended" } ∧
      e.resolve catalog = e.merge catalog.recommendedConfig ∧
      (∀ u, Linter.verify catalog u (e.merge catalog.recommendedConfig) =
        Linter.verify catalog u c) ∧
      extendFromRecommended e catalog = e ∧
      ∀ corpus base earlier, ∃ o,
        (Outcome.discover catalog corpus base .never earlier).outcome = .ok o ∧
          ∀ id ∈ catalog.recommendedIds, o.config.rules.contains id = true := by
  intro e
  have hMerge := Config.merge_extendFromRecommended catalog c hSet
  refine ⟨rfl, hMerge, if_pos rfl, ?_, Config.extendFromRecommended_extended catalog c, ?_⟩
  · intro u
    rw [hMerge]
    rfl
  · intro corpus base earlier
    exact ⟨Outcome.plain catalog corpus base, Outcome.outcome_discover catalog corpus base earlier,
      fun id => Outcome.contains_recommended catalog corpus base⟩

theorem extended_config_restored_mixed :
    let catalog : Catalog :=
      ⟨[Forbidden.noDebugger, Empty.noEmpty, Equality.rule, Semi.rule], by decide⟩
    let rules : NameMap Setting := .ofList
      [("no-debugger", .error), ("no-empty", .off), ("eqeqeq", ⟨.warn, []⟩),
        ("semi", ⟨.error, [.string "never"]⟩), ("house-rule", .error)]
    let c : Config := { parent := some "elsewhere", plugins := ["local"], rules }
    (∀ id ∈ catalog.recommendedIds, c.rules.contains id = true) ∧
      (extendFromRecommended c catalog).rules.names =
        ["eqeqeq", "house-rule", "no-empty", "semi"] ∧
      (extendFromRecommended c catalog).merge catalog.recommendedConfig =
        { c with parent := some "lintseed:recommended" } := by
  intro catalog rules c
  have hSet : ∀ id ∈ catalog.recommendedIds, c.rules.contains id = true := by decide
  obtain ⟨-, hMerge, -⟩ := extended_config_restored catalog c hSet
  exact ⟨hSet, by decide, hMerge⟩

end RuleScout
