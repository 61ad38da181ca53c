import RuleScout.Discovery.Outcome
import RuleScout.Proofs.Resolution
import RuleScout.Proofs.Trial
import RuleScout.Rule.Builtin.Forbidden

/-!
# What a discovered configuration promises

Candidates are tried rule by rule, and yet the promise is about all rules at once: on the files
of the corpus the discovered configuration finds nothing, apart from recommended rules for which
no setting is clean. When the corpus grows, a rule keeps its setting as long as the new files
leave its chosen candidate clean.
-/

set_option autoImplicit false

namespace RuleScout

namespace Outcome

/-- What discovery has to come to. -/
def plain (catalog : Catalog) (corpus : Corpus) (base : Config) : Outcome :=
  .ofSurvivors (.ofCatalog catalog) base corpus (Trial.plainSurvivors catalog corpus.units)

theorem outcome_discover (catalog : Catalog) (corpus : Corpus) (base : Config) (earlier : Nat) :
    (discover catalog corpus base .never earlier).outcome = .ok (plain catalog corpus base) := by
  rw [discover, Run.map, Trial.outcome_survivors]
  rfl

variable (catalog : Catalog) (corpus : Corpus) (base : Config)

theorem nodup_registryIds : (Registry.ofCatalog catalog).ids.Nodup := by
  rw [Registry.ids_ofCatalog]
  exact catalog.ids_nodup

theorem contains_plain_iff (id : String) :
    (plain catalog corpus base).config.rules.contains id = true ↔ id ∈ catalog.ids := by
  rw [← Registry.ids_ofCatalog]
  exact Resolution.contains_rules_iff _ _ (nodup_registryIds catalog) id

theorem names_plain_perm : (plain catalog corpus base).config.rules.names.Perm catalog.ids := by
  apply (List.perm_ext_iff_of_nodup (NameMap.nodup_names _) catalog.ids_nodup).mpr
  intro id
  rw [NameMap.mem_names_iff, ← NameMap.contains_iff]
  exact contains_plain_iff catalog corpus base id

theorem rule?_plain (r : Rule) (hr : r ∈ catalog.rules) :
    (plain catalog corpus base).config.rule? r.id =
      some (choose (r.candidates.filter (r.accepts corpus.units)) r.isRecommended).1 := by
  rw [← Trial.get_plainSurvivors catalog corpus.units r hr]
  exact Resolution.get?_rules _ _ (nodup_registryIds catalog) _ (Registry.mem_entries_ofCatalog hr)

theorem decisionRules_plain : (plain catalog corpus base).decisions.map (·.rule) = catalog.ids := by
  rw [← Registry.ids_ofCatalog]
  exact Resolution.decisionRules_eq _ _

theorem forced_plain_iff (r : Rule) (hr : r ∈ catalog.rules) :
    (∃ d ∈ (plain catalog corpus base).decisions, d.rule = r.id ∧ d.decision = .forcedError) ↔
      r.candidates.filter (r.accepts corpus.units) = [] ∧ r.isRecommended = true := by
  have hDecisions := Resolution.decisions_eq (Trial.plainSurvivors catalog corpus.units) _
    (nodup_registryIds catalog)
  have hEntry := Registry.mem_entries_ofCatalog hr
  have hForced := decision_choose (r.candidates.filter (r.accepts corpus.units)) r.isRecommended
  rw [← Trial.get_plainSurvivors catalog corpus.units r hr] at hForced ⊢
  rw [← hForced, plain, ofSurvivors, hDecisions]
  constructor
  · rintro ⟨d, hd, hRule, hDecision⟩
    obtain ⟨e, he, rfl⟩ := List.mem_map.mp hd
    have hSame := List.inj_on_of_nodup_map (nodup_registryIds catalog) he hEntry hRule
    subst hSame
    exact hDecision
  · intro hDecision
    exact ⟨_, List.mem_map_of_mem hEntry, rfl, hDecision⟩

end Outcome

/-! ## Soundness -/

/-- Under the setting that its accepted candidates call for, a rule reports something exactly
when it had to be kept without one. -/
theorem reports_iff_forced (catalog : Catalog) (us : List SourceUnit) (r : Rule)
    (hr : r ∈ catalog.rules) :
    (∃ u ∈ us, Linter.verifyRule catalog u r.id
      (choose (r.candidates.filter (r.accepts us)) r.isRecommended).1 ≠ []) ↔
      r.candidates.filter (r.accepts us) = [] ∧ r.isRecommended = true := by
  rw [setting_choose]
  cases hPreferred : preferred (r.candidates.filter (r.accepts us)) with
  | some c =>
    have hChosen := mem_of_preferred hPreferred
    have hNonempty := List.ne_nil_of_mem hChosen
    have hAccepts := List.all_eq_true.mp (List.mem_filter.mp hChosen).2
    constructor
    · rintro ⟨u, hu, hReports⟩
      have hSilent := List.isEmpty_iff.mp (hAccepts u hu)
      exact absurd ((Linter.verifyRule_eq_nil_iff catalog u r hr _).mpr (.inr hSilent)) hReports
    · exact fun h => absurd h.1 hNonempty
  | none =>
    have hNone := (preferred_eq_none_iff _).mp hPreferred
    rw [Option.map_none, Option.getD_none, fallback]
    cases r.isRecommended with
    | false =>
      constructor
      · rintro ⟨u, -, hReports⟩
        exact absurd ((Linter.verifyRule_eq_nil_iff catalog u r hr _).mpr (.inl rfl)) hReports
      · rintro ⟨-, hFalse⟩
        cases hFalse
    | true =>
      -- the bare severity is a candidate too, and it was not accepted
      have hBare := List.filter_eq_nil_iff.mp hNone _ r.bare_mem_candidates
      obtain ⟨u, hu, hCheck⟩ : ∃ u ∈ us, r.check u ⟨[]⟩ ≠ [] := by
        simpa [Rule.accepts] using hBare
      constructor
      · exact fun _ => ⟨hNone, rfl⟩
      · intro _
        refine ⟨u, hu, ?_⟩
        intro hSilent
        rcases (Linter.verifyRule_eq_nil_iff catalog u r hr _).mp hSilent with hOff | hNil
        · cases hOff
        · exact hCheck hNil

/-- A discovered configuration sets the rules of the catalog and changes nothing else. On its
corpus it finds violations of the rules that were kept without a clean candidate, and of no
others. -/
theorem discovery_sound (catalog : Catalog) (corpus : Corpus) (base : Config) (earlier : Nat) :
    ∃ o, (Outcome.discover catalog corpus base .never earlier).outcome = .ok o ∧
      o.config.rules.names.Perm catalog.ids ∧
      o.config = base.withRules o.config.rules ∧
      o.decisions.map (·.rule) = catalog.ids ∧
      (∀ id, (∃ u ∈ corpus.units, ∃ f ∈ Linter.verify catalog u o.config, f.rule = id) ↔
        ∃ d ∈ o.decisions, d.rule = id ∧ d.decision = .forcedError) ∧
      ∀ r ∈ catalog.rules, (r.isRecommended = false ∨ ∃ c ∈ r.candidates, r.accepts corpus.units c) →
        ∀ u ∈ corpus.units, ∀ f ∈ Linter.verify catalog u o.config, f.rule ≠ r.id := by
  have hFound (r : Rule) (hr : r ∈ catalog.rules) :
      (∃ u ∈ corpus.units, ∃ f ∈ Linter.verify catalog u
        (Outcome.plain catalog corpus base).config, f.rule = r.id) ↔
      r.candidates.filter (r.accepts corpus.units) = [] ∧ r.isRecommended = true := by
    rw [← reports_iff_forced catalog corpus.units r hr]
    simp only [Linter.any_rule_verify_iff, Outcome.rule?_plain catalog corpus base r hr,
      Option.some.injEq, exists_eq_left']
  refine ⟨Outcome.plain catalog corpus base, Outcome.outcome_discover catalog corpus base earlier,
    Outcome.names_plain_perm catalog corpus base, rfl,
    Outcome.decisionRules_plain catalog corpus base, ?_, ?_⟩
  · intro id
    by_cases hId : id ∈ catalog.ids
    · obtain ⟨r, hr, rfl⟩ := (catalog.mem_ids_iff id).mp hId
      rw [hFound r hr, Outcome.forced_plain_iff catalog corpus base r hr]
    · constructor
      · rintro ⟨u, -, hFinding⟩
        obtain ⟨s, hSetting, -⟩ := (Linter.any_rule_verify_iff _ _ _ _).mp hFinding
        exact absurd ((Outcome.contains_plain_iff catalog corpus base id).mp
          ((NameMap.contains_iff _ _).mpr ⟨s, hSetting⟩)) hId
      · rintro ⟨d, hd, rfl, -⟩
        rw [← Outcome.decisionRules_plain catalog corpus base] at hId
        exact absurd (List.mem_map_of_mem hd) hId
  · intro r hr hQuiet u hu f hf hRule
    obtain ⟨hNone, hRecommended⟩ := (hFound r hr).mp ⟨u, hu, f, hf, hRule⟩
    rcases hQuiet with hOptional | ⟨c, hc, hAccepts⟩
    · rw [hOptional] at hRecommended
      cases hRecommended
    · exact List.filter_eq_nil_iff.mp hNone c hc hAccepts

theorem discovery_sound_linebreaks :
    let catalog : Catalog := ⟨[Forbidden.noDebugger, Layout.linebreakStyle], by decide⟩
    let ended : SourceUnit :=
      ⟨"b.js", "\n", #[⟨⟨.newline, "\n", 1⟩, 0, 1⟩], ⟨#[[]], []⟩, [⟨1, "", none, false, []⟩]⟩
    Layout.linebreakStyle.isRecommended = false ∧
      ∃ o, (Outcome.discover catalog ⟨[ended]⟩ {} .never 0).outcome = .ok o ∧
        ∀ f ∈ Linter.verify catalog ended o.config, f.rule ≠ "linebreak-style" := by
  intro catalog ended
  obtain ⟨o, hRun, -, -, -, -, hQuiet⟩ := discovery_sound catalog ⟨[ended]⟩ {} 0
  refine ⟨rfl, o, hRun, ?_⟩
  exact hQuiet Layout.linebreakStyle (.tail _ List.mem_cons_self) (.inl rfl) ended
    List.mem_cons_self

/-! ## Growth of the corpus -/

/-- More units can only take survivors away. A rule whose chosen candidate is left, or that had
none to begin with, keeps its setting. -/
theorem discovery_stable_under_growth (catalog : Catalog) (base : Config) (earlier : Nat)
    (corpus grown : Corpus) (added : List SourceUnit)
    (hGrown : grown.units.Perm (corpus.units ++ added)) :
    ∃ (before after : Survivors) (o p : Outcome),
      (Trial.survivors catalog (.ofCatalog catalog) corpus base .never earlier).outcome =
        .ok before ∧
      (Trial.survivors catalog (.ofCatalog catalog) grown base .never earlier).outcome =
        .ok after ∧
      (Outcome.discover catalog corpus base .never earlier).outcome = .ok o ∧
      (Outcome.discover catalog grown base .never earlier).outcome = .ok p ∧
      ∀ r ∈ catalog.rules,
        after.get r.id = (before.get r.id).filter (r.accepts added) ∧
        (∀ c d, select (before.get r.id) = some (c, d) → r.accepts added c = true →
          o.config.rule? r.id = some c.setting ∧ p.config.rule? r.id = some c.setting) ∧
        (before.get r.id = [] →
          o.config.rule? r.id = some (fallback r.isRecommended).1 ∧
            p.config.rule? r.id = some (fallback r.isRecommended).1) := by
  refine ⟨Trial.plainSurvivors catalog corpus.units, Trial.plainSurvivors catalog grown.units,
    Outcome.plain catalog corpus base, Outcome.plain catalog grown base,
    Trial.outcome_survivors catalog corpus base earlier,
    Trial.outcome_survivors catalog grown base earlier,
    Outcome.outcome_discover catalog corpus base earlier,
    Outcome.outcome_discover catalog grown base earlier, ?_⟩
  intro r hr
  have hLeft : r.candidates.filter (r.accepts grown.units) =
      (r.candidates.filter (r.accepts corpus.units)).filter (r.accepts added) := by
    rw [List.filter_filter]
    apply List.filter_congr
    intro c _
    rw [r.accepts_perm hGrown, r.accepts_append, Bool.and_comm]
  rw [Trial.get_plainSurvivors catalog _ r hr, Trial.get_plainSurvivors catalog _ r hr,
    Outcome.rule?_plain catalog corpus base r hr, Outcome.rule?_plain catalog grown base r hr, hLeft,
    setting_choose, setting_choose]
  refine ⟨rfl, ?_, ?_⟩
  · intro c d hSelect hKept
    have hChosen : preferred (r.candidates.filter (r.accepts corpus.units)) = some c := by
      rw [← select_candidate, hSelect]
      rfl
    rw [preferred_filter hChosen hKept, hChosen]
    exact ⟨rfl, rfl⟩
  · intro hNone
    rw [hNone]
    exact ⟨rfl, rfl⟩

theorem discovery_stable_under_growth_linebreaks :
    let catalog : Catalog := ⟨[Layout.linebreakStyle], by decide⟩
    let bare : SourceUnit := ⟨"a.js", "", #[], ⟨#[], []⟩, [⟨1, "", none, false, []⟩]⟩
    let ended : SourceUnit :=
      ⟨"b.js", "\n", #[⟨⟨.newline, "\n", 1⟩, 0, 1⟩], ⟨#[[]], []⟩, [⟨1, "", none, false, []⟩]⟩
    SourceUnit.parse "a.js" "" = .ok bare ∧ SourceUnit.parse "b.js" "\n" = .ok ended ∧
      [ended, bare].Perm ([bare] ++ [ended]) ∧
      ∃ o p, (Outcome.discover catalog ⟨[bare]⟩ {} .never 0).outcome = .ok o ∧
        (Outcome.discover catalog ⟨[ended, bare]⟩ {} .never 0).outcome = .ok p ∧
        o.config.rule? "linebreak-style" = some ⟨.error, [.string "unix"]⟩ ∧
        p.config.rule? "linebreak-style" = some ⟨.error, [.string "unix"]⟩ := by
  intro catalog bare ended
  have hGrown : [ended, bare].Perm ([bare] ++ [ended]) := List.Perm.swap _ _ _
  have hRule : Layout.linebreakStyle ∈ catalog.rules := List.mem_cons_self
  obtain ⟨before, after, o, p, hBefore, -, hOld, hNew, hAll⟩ :=
    discovery_stable_under_growth catalog {} 0 ⟨[bare]⟩ ⟨[ended, bare]⟩ [ended] hGrown
  have hPlain : before = Trial.plainSurvivors catalog [bare] :=
    Except.ok.inj (hBefore.symm.trans (Trial.outcome_survivors catalog ⟨[bare]⟩ {} 0))
  have hSelect : select (before.get Layout.linebreakStyle.id) =
      some (⟨"linebreak-style", [.string "unix"]⟩, .singleOption) := by
    rw [hPlain, Trial.get_plainSurvivors catalog [bare] _ hRule]
    decide
  obtain ⟨-, hKept, -⟩ := hAll Layout.linebreakStyle hRule
  exact ⟨SourceUnit.parse_empty _, SourceUnit.parse_newline _, hGrown, o, p, hOld, hNew,
    hKept _ _ hSelect (by decide)⟩

end RuleScout
