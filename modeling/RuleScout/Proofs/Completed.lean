import RuleScout.Proofs.Progress

/-!
# Discoveries that come to their end

A discovery that could have been cancelled and was not has the outcome that it would have had
anyway, and all its files have been read.
-/

set_option autoImplicit false

namespace RuleScout

namespace Trial

theorem results_of_ok (p : Plan) {completed reported : Nat} {cs : List Candidate}
    {results : List TrialResult}
    (h : (runCandidates p completed reported cs).outcome = .ok results) :
    results = cs.map fun c => ⟨c, isClean p.catalog p.base p.corpus c⟩ := by
  induction cs generalizing completed reported results with
  | nil =>
    cases h
    rfl
  | cons c cs ih =>
    rw [runCandidates] at h
    split at h
    · cases h
    · obtain ⟨rest, hRest, rfl⟩ := Run.cons_ok h
      rw [List.map_cons, ← ih hRest]
      rfl

end Trial

theorem Outcome.eq_plain_of_ok {catalog : Catalog} {corpus : Corpus} {base : Config}
    {cancellation : Cancellation} {earlier : Nat} {o : Outcome}
    (h : (discover catalog corpus base cancellation earlier).outcome = .ok o) :
    o = plain catalog corpus base := by
  rw [discover, Trial.survivors, Trial.run_ofCatalog] at h
  obtain ⟨survivors, hSurvivors, rfl⟩ := Run.map_ok h
  obtain ⟨results, hResults, rfl⟩ := Run.map_ok hSurvivors
  rw [Trial.results_of_ok _ hResults]
  simp only [Trial.isClean_eq_accepts]
  rfl

namespace Corpus

theorem readUnit_eq_ok_iff {p : Project} {path : String} {u : SourceUnit} :
    readUnit p path = .ok u ↔ ∃ text, p.tree.read (p.absolute path) = .ok text ∧
      SourceUnit.parse (p.shown path) text = .ok u := by
  rw [readUnit]
  cases p.tree.read (p.absolute path) with
  | error fault => simp
  | ok text =>
    simp only [Except.ok.injEq, exists_eq_left']
    cases SourceUnit.parse (p.shown path) text <;> simp

theorem mem_of_readUnits {p : Project} {total : Nat} {paths : List String} {us : List SourceUnit}
    (h : (readUnits p total paths).outcome = .ok us) {path : String} (hPath : path ∈ paths) :
    ∃ u ∈ us, readUnit p path = .ok u := by
  induction paths generalizing us with
  | nil => cases hPath
  | cons first paths ih =>
    rw [readUnits] at h
    split at h
    · cases h
    · rename_i u hUnit
      obtain ⟨rest, hRest, rfl⟩ := Run.cons_ok h
      rcases List.mem_cons.mp hPath with rfl | hLater
      · exact ⟨u, List.mem_cons_self, hUnit⟩
      · obtain ⟨v, hv, hRead⟩ := ih hRest hLater
        exact ⟨v, List.mem_cons_of_mem _ hv, hRead⟩

variable [PathSearch]

theorem resolve_of_load {f : FileSelection} {p : Project} {patterns : List String}
    {corpus : Corpus} (h : (load f p patterns).outcome = .ok corpus) :
    ∃ paths, f.resolve p patterns = .ok paths := by
  rw [load] at h
  split at h
  · cases h
  · cases h
  · exact ⟨_, ‹_›⟩

/-- Every file that is selected is in the corpus. -/
theorem mem_of_load {f : FileSelection} {p : Project} {patterns paths : List String}
    {corpus : Corpus} (h : (load f p patterns).outcome = .ok corpus)
    (hPaths : f.resolve p patterns = .ok paths) {path : String} (hPath : path ∈ paths) :
    ∃ u ∈ corpus.units, readUnit p path = .ok u := by
  rw [load, hPaths] at h
  cases paths with
  | nil => cases hPath
  | cons first paths =>
    obtain ⟨us, hUnits, rfl⟩ := Run.map_ok h
    obtain ⟨u, hu, hRead⟩ := mem_of_readUnits hUnits hPath
    exact ⟨u, List.mem_mergeSort.mpr hu, hRead⟩

end Corpus

variable [PathSearch] in
/-- A session that succeeds has read a corpus, and its outcome is that of a discovery on it. -/
theorem Session.plain_of_ok {catalog : Catalog} {f : FileSelection} {p : Project} {base : Config}
    {patterns : List String} {cancellation : Cancellation} {o : Outcome}
    (h : (run catalog f p base patterns cancellation).outcome = .ok o) :
    ∃ corpus, (Corpus.load f p patterns).outcome = .ok corpus ∧
      o = .plain catalog corpus base := by
  obtain ⟨corpus, hLoad⟩ := load_ok_of_run h
  rw [run_of_load hLoad] at h
  exact ⟨corpus, hLoad, Outcome.eq_plain_of_ok h⟩

/-! ## Linting with the outcome -/

namespace Outcome

/-- On its corpus a discovered setting finds nothing, unless the rule had to be kept without a
clean candidate. -/
theorem forced_of_mem_verify {catalog : Catalog} {corpus : Corpus} {base c : Config}
    {u : SourceUnit} {f : Finding} (hRules : c.rules = (plain catalog corpus base).config.rules)
    (hUnit : u ∈ corpus.units) (hFinding : f ∈ Linter.verify catalog u c) :
    ∃ d ∈ (plain catalog corpus base).decisions, d.rule = f.rule ∧ d.decision = .forcedError := by
  obtain ⟨s, hSetting, hOwn⟩ := (Linter.mem_verify_iff catalog u c f).mp hFinding
  rw [Config.rule?, hRules] at hSetting
  have hKnown : f.rule ∈ catalog.ids :=
    (contains_plain_iff catalog corpus base f.rule).mp ((NameMap.contains_iff _ _).mpr ⟨s, hSetting⟩)
  obtain ⟨r, hr, hId⟩ := (catalog.mem_ids_iff f.rule).mp hKnown
  rw [← hId] at hSetting hOwn ⊢
  have hChosen : s = (choose (r.candidates.filter (r.accepts corpus.units)) r.isRecommended).1 :=
    Option.some.inj (hSetting.symm.trans (rule?_plain catalog corpus base r hr))
  rw [forced_plain_iff catalog corpus base r hr, ← reports_iff_forced catalog corpus.units r hr,
    ← hChosen]
  exact ⟨u, hUnit, List.ne_nil_of_mem hOwn⟩

end Outcome

end RuleScout
