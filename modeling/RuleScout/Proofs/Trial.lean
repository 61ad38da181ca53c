import RuleScout.Proofs.Candidate
import RuleScout.Proofs.Survivors
import RuleScout.Rule.Builtin.Layout

/-!
# Trials against their plain meaning

Without cancellation a run says of every candidate whether its rule accepts all units. Neither
stopping at the first finding nor the settings of the base can be seen in what comes out, and so
the order of the units does not matter.
-/

set_option autoImplicit false

namespace RuleScout

namespace Run

variable {α : Type}

theorem nil_andThen (next : Nat → Nat → Run (List α)) :
    (⟨[], .ok []⟩ : Run (List α)).andThen next = next 0 0 := by
  have hMap (x : Except Failure (List α)) : x.map (fun results => results) = x := by
    cases x <;> rfl
  simp only [andThen, List.length_nil, List.nil_append, hMap]

theorem stop_andThen (f : Failure) (next : Nat → Nat → Run (List α)) :
    (stop f : Run (List α)).andThen next = stop f := rfl

theorem cons_andThen (made : List Report) (a : α) (r : Run (List α))
    (next : Nat → Nat → Run (List α)) :
    (cons made a r).andThen next =
      cons made a (r.andThen fun results reports => next (results + 1) (made.length + reports)) := by
  obtain ⟨reports, outcome⟩ := r
  cases outcome with
  | error f => rfl
  | ok results =>
    simp only [andThen, cons, Except.map, List.length_cons, List.length_append, List.append_assoc]
    cases (next (results.length + 1) (made.length + reports.length)).outcome <;> rfl

end Run

namespace Trial

/-! ## Rule by rule is candidate by candidate -/

theorem runCandidates_append (p : Plan) (completed reported : Nat) (cs ds : List Candidate) :
    runCandidates p completed reported (cs ++ ds) =
      (runCandidates p completed reported cs).andThen fun results reports =>
        runCandidates p (completed + results) (reported + reports) ds := by
  induction cs generalizing completed reported with
  | nil =>
    rw [List.nil_append, runCandidates, Run.nil_andThen]
    rfl
  | cons c cs ih =>
    rw [List.cons_append, runCandidates, runCandidates]
    split
    · rw [Run.stop_andThen]
    · simp only [Run.cons_andThen, ih, Nat.add_assoc, Nat.add_comm 1]

/-- Where all rules are known, the limits between them cannot be seen in a run. -/
theorem runEntries_eq_runCandidates (p : Plan) (completed reported : Nat) (es : List RuleEntry)
    (hKnown : ∀ e ∈ es, p.catalog.contains e.rule = true) :
    runEntries p completed reported es =
      runCandidates p completed reported (es.flatMap (·.candidates)) := by
  induction es generalizing completed reported with
  | nil => rfl
  | cons e es ih =>
    rw [runEntries, if_pos (hKnown e List.mem_cons_self), List.flatMap_cons, runCandidates_append]
    apply congrArg
    funext results reports
    exact ih _ _ fun x hx => hKnown x (List.mem_cons_of_mem _ hx)

theorem run_ofCatalog (catalog : Catalog) (corpus : Corpus) (base : Config)
    (cancellation : Cancellation) (earlier : Nat) :
    run catalog (.ofCatalog catalog) corpus base cancellation earlier =
      runCandidates ⟨catalog, base, corpus, (Registry.ofCatalog catalog).candidateCount, earlier,
        cancellation⟩ 0 0 (Registry.ofCatalog catalog).candidates := by
  apply runEntries_eq_runCandidates
  intro e he
  obtain ⟨r, hr, rfl⟩ := List.mem_map.mp he
  exact catalog.contains_id r hr

theorem outcome_runCandidates (p : Plan) (hNever : p.cancellation = .never)
    (completed reported : Nat) (cs : List Candidate) :
    (runCandidates p completed reported cs).outcome =
      .ok (cs.map fun c => ⟨c, isClean p.catalog p.base p.corpus c⟩) := by
  have hFree (n : Nat) : p.cancellation.inForce n = false := by
    rw [hNever]
    rfl
  induction cs generalizing completed reported with
  | nil => rfl
  | cons c cs ih =>
    rw [runCandidates, hFree, if_neg (by decide)]
    simp only [Run.cons, ih]
    rfl

/-! ## A single trial -/

/-- A trial fails on a unit exactly when the rule itself, if it exists, reports something
there. -/
theorem fails_eq (catalog : Catalog) (base : Config) (c : Candidate) (u : SourceUnit) :
    fails catalog base c u =
      (catalog.get? c.rule).any fun r => !(r.check u ⟨c.options⟩).isEmpty := by
  have hSetting : (config base c).rule? c.rule = some c.setting :=
    (NameMap.get?_insert _ _ _ _).trans (if_pos rfl)
  have hFails : fails catalog base c u = true ↔
      Linter.verifyRule catalog u c.rule c.setting ≠ [] := by
    rw [fails, List.any_eq_true]
    simp only [decide_eq_true_eq]
    rw [Linter.any_rule_verify_iff, hSetting]
    simp
  have hEnabled : c.setting.isEnabled = true := rfl
  rw [Bool.eq_iff_iff, hFails, Linter.verifyRule, if_pos hEnabled]
  cases catalog.get? c.rule with
  | none => simp
  | some r => simp [Candidate.setting]

theorem isClean_eq_accepts (catalog : Catalog) (base : Config) (corpus : Corpus)
    (c : Candidate) : isClean catalog base corpus c = catalog.accepts corpus.units c := by
  rw [Bool.eq_iff_iff, isClean, firstFailing, List.findIdx?_isNone, Catalog.accepts]
  simp only [fails_eq]
  cases catalog.get? c.rule with
  | none => simp
  | some r => simp [Rule.accepts]

/-! ## The outcome -/

/-- What the trials have to find out about the candidates of a catalog. -/
def plainResults (catalog : Catalog) (us : List SourceUnit) : List TrialResult :=
  (Registry.ofCatalog catalog).candidates.map fun c => ⟨c, catalog.accepts us c⟩

theorem outcome_run (catalog : Catalog) (corpus : Corpus) (base : Config) (earlier : Nat) :
    (run catalog (.ofCatalog catalog) corpus base .never earlier).outcome =
      .ok (plainResults catalog corpus.units) := by
  rw [run_ofCatalog, outcome_runCandidates _ rfl]
  simp only [isClean_eq_accepts, plainResults]

def plainSurvivors (catalog : Catalog) (us : List SourceUnit) : Survivors :=
  .ofResults (.ofCatalog catalog) (plainResults catalog us)

theorem outcome_survivors (catalog : Catalog) (corpus : Corpus) (base : Config)
    (earlier : Nat) :
    (survivors catalog (.ofCatalog catalog) corpus base .never earlier).outcome =
      .ok (plainSurvivors catalog corpus.units) := by
  rw [survivors, Run.map, outcome_run]
  rfl

theorem plainSurvivors_perm (catalog : Catalog) {us vs : List SourceUnit} (h : us.Perm vs) :
    plainSurvivors catalog us = plainSurvivors catalog vs := by
  simp only [plainSurvivors, plainResults, catalog.accepts_perm h]

theorem get_plainSurvivors (catalog : Catalog) (us : List SourceUnit) (r : Rule)
    (hr : r ∈ catalog.rules) :
    (plainSurvivors catalog us).get r.id = r.candidates.filter (r.accepts us) := by
  rw [plainSurvivors, Survivors.get_ofResults, plainResults, cleanCandidates_map,
    Registry.filter_candidates hr]
  apply List.filter_congr
  intro c hc
  exact catalog.accepts_eq us hr hc

theorem names_plainSurvivors (catalog : Catalog) (us : List SourceUnit) :
    (plainSurvivors catalog us).byRule.map (·.1) = catalog.ids := by
  rw [plainSurvivors, Survivors.names_ofResults, Registry.ids_ofCatalog]
  intro t ht
  obtain ⟨c, hc, rfl⟩ := List.mem_map.mp ht
  rw [Registry.candidates_ofCatalog] at hc
  obtain ⟨r, hr, hMem⟩ := List.mem_flatMap.mp hc
  rw [Registry.ids_ofCatalog, Rule.rule_of_mem_candidates hMem]
  exact (catalog.mem_ids_iff r.id).mpr ⟨r, hr, rfl⟩

end Trial

/-- Trials find for every rule exactly the candidates under which it accepts all units, in the
order of the candidates. The base and the order of the units do not count. -/
theorem survivors_eq_accepted (catalog : Catalog) (corpus : Corpus) :
    ∃ s : Survivors,
      (∀ (shuffled : Corpus) (base : Config) (earlier : Nat),
        shuffled.units.Perm corpus.units →
        (Trial.survivors catalog (.ofCatalog catalog) shuffled base .never earlier).outcome =
          .ok s) ∧
      s.byRule.map (·.1) = catalog.ids ∧
      (∀ r ∈ catalog.rules, s.contains r.id = true ∧
        s.get r.id = r.candidates.filter (r.accepts corpus.units)) ∧
      ∀ r ∈ catalog.rules, ∀ c ∈ r.candidates, ∀ (shuffled : Corpus) (base : Config),
        shuffled.units.Perm corpus.units →
        (Trial.isClean catalog base shuffled c = true ↔ c ∈ s.get r.id) := by
  refine ⟨Trial.plainSurvivors catalog corpus.units, ?_, ?_, ?_, ?_⟩
  · intro shuffled base earlier hShuffled
    rw [Trial.outcome_survivors, Trial.plainSurvivors_perm catalog hShuffled]
  · exact Trial.names_plainSurvivors catalog corpus.units
  · intro r hr
    constructor
    · rw [Survivors.contains_iff_mem_names, Trial.names_plainSurvivors]
      exact (catalog.mem_ids_iff r.id).mpr ⟨r, hr, rfl⟩
    · exact Trial.get_plainSurvivors catalog corpus.units r hr
  · intro r hr c hc shuffled base hShuffled
    rw [Trial.isClean_eq_accepts, catalog.accepts_perm hShuffled, catalog.accepts_eq _ hr hc,
      Trial.get_plainSurvivors catalog corpus.units r hr, List.mem_filter]
    exact (and_iff_right hc).symm

theorem survivors_eq_accepted_linebreaks :
    let catalog : Catalog := ⟨[Layout.linebreakStyle], by decide⟩
    let bare : SourceUnit := ⟨"a.js", "", #[], ⟨#[], []⟩, [⟨1, "", none, false, []⟩]⟩
    let ended : SourceUnit :=
      ⟨"b.js", "\n", #[⟨⟨.newline, "\n", 1⟩, 0, 1⟩], ⟨#[[]], []⟩, [⟨1, "", none, false, []⟩]⟩
    SourceUnit.parse "a.js" "" = .ok bare ∧ SourceUnit.parse "b.js" "\n" = .ok ended ∧
      [ended, bare].Perm [bare, ended] ∧
      ∃ s, (Trial.survivors catalog (.ofCatalog catalog) ⟨[ended, bare]⟩ {} .never 0).outcome =
          .ok s ∧
        s.get "linebreak-style" =
          [⟨"linebreak-style", []⟩, ⟨"linebreak-style", [.string "unix"]⟩] := by
  intro catalog bare ended
  have hShuffled : [ended, bare].Perm [bare, ended] := List.Perm.swap _ _ _
  obtain ⟨s, hRun, -, hGet, -⟩ := survivors_eq_accepted catalog ⟨[bare, ended]⟩
  refine ⟨SourceUnit.parse_empty _, SourceUnit.parse_newline _, hShuffled, s,
    hRun ⟨[ended, bare]⟩ {} 0 hShuffled, ?_⟩
  exact (hGet Layout.linebreakStyle List.mem_cons_self).2.trans (by decide)

end RuleScout
