import RuleScout.Proofs.Trial

/-!
# Cancelled runs

A cancellation is looked at between trials only. A run that is cancelled has made the reports of
whole trials, those before the first one that finds the cancellation in force, and has no
survivors. Where no trial finds it in force the run is the one without cancellation.
-/

set_option autoImplicit false

namespace RuleScout

theorem Cancellation.inForce_some_iff (n reports : Nat) :
    (⟨some n⟩ : Cancellation).inForce reports = true ↔ n ≤ reports := by
  simp [inForce]

namespace Trial

/-- What the trial of a candidate reports. -/
def Plan.made (p : Plan) (c : Candidate) : List Report :=
  reports p.corpus.size (p.candidates * p.corpus.size) (firstFailing p.catalog p.base p.corpus c)

def Plan.result (p : Plan) (c : Candidate) : TrialResult :=
  ⟨c, (firstFailing p.catalog p.base p.corpus c).isNone⟩

section Steps

variable (p : Plan) (completed reported : Nat)

theorem runCandidates_free (cs : List Candidate)
    (hFree : ∀ k < cs.length,
      p.cancellation.inForce (p.earlier + (reported + ((cs.take k).flatMap p.made).length)) = false) :
    runCandidates p completed reported cs = ⟨cs.flatMap p.made, .ok (cs.map p.result)⟩ := by
  induction cs generalizing completed reported with
  | nil => rfl
  | cons c cs ih =>
    have hFirst : p.cancellation.inForce (p.earlier + reported) = false :=
      hFree 0 (Nat.succ_pos _)
    -- the trials of the rest start behind the reports of this one
    have hRest := ih (completed + 1) (reported + (p.made c).length) fun k hk => by
      have hNext := hFree (k + 1) (Nat.succ_lt_succ hk)
      rwa [List.take_succ_cons, List.flatMap_cons, List.length_append,
        ← Nat.add_assoc reported] at hNext
    rw [runCandidates, hFirst, if_neg Bool.false_ne_true]
    change Run.cons (p.made c) (p.result c)
      (runCandidates p (completed + 1) (reported + (p.made c).length) cs) = _
    rw [hRest]
    rfl

theorem runCandidates_stopped (c : Candidate) (cs : List Candidate)
    (hForce : p.cancellation.inForce (p.earlier + reported) = true) :
    runCandidates p completed reported (c :: cs) = .stop (.cancelled completed p.candidates) := by
  rw [runCandidates, if_pos hForce]

theorem runCandidates_cut (cs : List Candidate) (k : Nat) (hk : k < cs.length)
    (hForce : p.cancellation.inForce
      (p.earlier + (reported + ((cs.take k).flatMap p.made).length)) = true)
    (hFree : ∀ j < k,
      p.cancellation.inForce (p.earlier + (reported + ((cs.take j).flatMap p.made).length)) = false) :
    runCandidates p completed reported cs =
      ⟨(cs.take k).flatMap p.made, .error (.cancelled (completed + k) p.candidates)⟩ := by
  have hLength : (cs.take k).length = k := List.length_take_of_le (Nat.le_of_lt hk)
  have hBefore := runCandidates_free p completed reported (cs.take k) fun j hj => by
    rw [hLength] at hj
    rw [List.take_take, Nat.min_eq_left (Nat.le_of_lt hj)]
    exact hFree j hj
  calc
    runCandidates p completed reported cs
      = runCandidates p completed reported (cs.take k ++ cs[k] :: cs.drop (k + 1)) := by
        rw [List.getElem_cons_drop, List.take_append_drop]
    _ = ⟨(cs.take k).flatMap p.made, .error (.cancelled (completed + k) p.candidates)⟩ := by
        rw [runCandidates_append, hBefore, Run.andThen]
        simp only [List.length_map, hLength, runCandidates_stopped p _ _ _ _ hForce, Run.stop,
          List.append_nil]
        rfl

end Steps

end Trial

/-- A run whose cancellation comes with report `n` of its own completes the trials that start
before that report, and reports what they report. When no trial starts after it the run is the
one that is never cancelled. -/
theorem cancellation_exact (catalog : Catalog) (corpus : Corpus) (base : Config)
    (earlier n : Nat) :
    let registry := Registry.ofCatalog catalog
    let run := fun c => Trial.survivors catalog registry corpus base c earlier
    let made := Trial.Plan.made ⟨catalog, base, corpus, registry.candidateCount, earlier, .never⟩
    let r := fun k => ((registry.candidates.take k).flatMap made).length
    (run .never).reports = registry.candidates.flatMap made ∧
      (∃ s, (run .never).outcome = .ok s) ∧
      (∀ k₀ < registry.candidateCount, n ≤ r k₀ → (∀ k < k₀, r k < n) →
        run ⟨some (earlier + n)⟩ =
          ⟨(run .never).reports.take (r k₀), .error (.cancelled k₀ registry.candidateCount)⟩) ∧
      ((∀ k < registry.candidateCount, r k < n) → run ⟨some (earlier + n)⟩ = run .never) := by
  intro registry run made r
  let plan (c : Cancellation) : Trial.Plan :=
    ⟨catalog, base, corpus, registry.candidateCount, earlier, c⟩
  have hRun (c : Cancellation) : run c =
      (Trial.runCandidates (plan c) 0 0 registry.candidates).map (.ofResults registry) := by
    simp only [run, Trial.survivors, registry, Trial.run_ofCatalog]
    rfl
  have hInForce (k : Nat) :
      (plan ⟨some (earlier + n)⟩).cancellation.inForce (earlier + (0 + r k)) = true ↔ n ≤ r k := by
    rw [Cancellation.inForce_some_iff]
    omega
  have hFree {k : Nat} (hk : r k < n) :
      (plan ⟨some (earlier + n)⟩).cancellation.inForce (earlier + (0 + r k)) = false := by
    rw [← Bool.not_eq_true, hInForce]
    exact Nat.not_le.mpr hk
  have hNever : run .never = ⟨registry.candidates.flatMap made,
      .ok (.ofResults registry (registry.candidates.map (plan .never).result))⟩ := by
    rw [hRun, Trial.runCandidates_free _ 0 0 _ fun _ _ => rfl]
    rfl
  refine ⟨by rw [hNever], ⟨_, by rw [hNever]⟩, ?_, ?_⟩
  · intro k₀ hk₀ hReached hBefore
    have hSplit : registry.candidates.flatMap made =
        (registry.candidates.take k₀).flatMap made ++ (registry.candidates.drop k₀).flatMap made := by
      rw [← List.flatMap_append, List.take_append_drop]
    have hTake : (registry.candidates.flatMap made).take (r k₀) =
        (registry.candidates.take k₀).flatMap made := by
      rw [hSplit]
      exact List.take_left
    rw [hRun, Trial.runCandidates_cut _ 0 0 _ k₀ hk₀ ((hInForce k₀).mpr hReached)
      fun j hj => hFree (hBefore j hj), hNever, hTake, Nat.zero_add]
    rfl
  · intro hBefore
    rw [hRun, Trial.runCandidates_free _ 0 0 _ fun k hk => hFree (hBefore k hk), hNever]
    rfl

/-- Of three trials the first two make two reports each and the third makes three. Cancelled with
the third report the run completes two trials, cancelled with the fifth it completes all. -/
theorem cancellation_exact_linebreaks :
    let catalog : Catalog := ⟨[Layout.linebreakStyle], by decide⟩
    let bare : SourceUnit := ⟨"a.js", "", #[], ⟨#[], []⟩, [⟨1, "", none, false, []⟩]⟩
    let ended : SourceUnit :=
      ⟨"b.js", "\n", #[⟨⟨.newline, "\n", 1⟩, 0, 1⟩], ⟨#[[]], []⟩, [⟨1, "", none, false, []⟩]⟩
    let run := fun c =>
      Trial.survivors catalog (.ofCatalog catalog) ⟨[bare, ended]⟩ {} c 0
    SourceUnit.parse "a.js" "" = .ok bare ∧ SourceUnit.parse "b.js" "\n" = .ok ended ∧
      run ⟨some 3⟩ = ⟨(run .never).reports.take 4, .error (.cancelled 2 3)⟩ ∧
      run ⟨some 5⟩ = run .never := by
  intro catalog bare ended run
  have hCut := (cancellation_exact catalog ⟨[bare, ended]⟩ {} 0 3).2.2.1
  have hFree := (cancellation_exact catalog ⟨[bare, ended]⟩ {} 0 5).2.2.2
  have hReports : (((Registry.ofCatalog catalog).candidates.take 2).flatMap
      (Trial.Plan.made ⟨catalog, {}, ⟨[bare, ended]⟩, 3, 0, .never⟩)).length = 4 := by
    decide +kernel
  refine ⟨SourceUnit.parse_empty _, SourceUnit.parse_newline _, ?_, ?_⟩
  · refine (hCut 2 (by decide) (by decide +kernel) (by decide +kernel)).trans ?_
    exact congrArg (fun k => Run.mk ((run .never).reports.take k) (.error (.cancelled 2 3))) hReports
  · exact hFree (by decide +kernel)

end RuleScout
