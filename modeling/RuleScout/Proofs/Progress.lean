import Mathlib.Algebra.BigOperators.Ring.List
import Mathlib.Algebra.Order.Field.Rat
import Mathlib.Data.List.TakeWhile
import Mathlib.Tactic.NormNum
import Mathlib.Tactic.Ring
import RuleScout.Proofs.Cancellation
import RuleScout.Proofs.Discovery
import RuleScout.Proofs.Paths
import RuleScout.Proofs.Template
import RuleScout.Discovery.Session

/-!
# Progress adds up

Progress is reported in shares of the work. Rounded increments need not add up, so they are read
as rational numbers here. Each trial accounts for all files, wherever it stops, and so the reports
of a run that tries all candidates add up to one, and those of a successful discovery as well.
-/

set_option autoImplicit false

namespace RuleScout

/-! ## Increments in any arithmetic -/

section Formulas

variable {α : Type} [OfScientific α] [Mul α] [Div α] (ofNat : Nat → α)

def Report.incrementIn (r : Report) : α :=
  (if r.total = 0 then 0.0 else 1.0 / ofNat r.total) * ofNat r.done

def Session.incrementsIn (s : Session) : List α :=
  s.reading.map (fun r => r.incrementIn ofNat * 0.2) ++
    s.trying.map fun r => r.incrementIn ofNat * 0.8

end Formulas

theorem Report.incrementIn_float (r : Report) : r.incrementIn Float.ofNat = r.increment := rfl

theorem Session.incrementsIn_float (s : Session) : s.incrementsIn Float.ofNat = s.increments := rfl

/-- The increment of a report without rounding. -/
def Report.exact (r : Report) : ℚ := r.incrementIn Nat.cast

def Session.exact (s : Session) : List ℚ := s.incrementsIn Nat.cast

theorem Report.exact_eq (r : Report) : r.exact = r.done * (1 / r.total) := by
  rw [exact, incrementIn]
  split
  · rename_i hTotal
    rw [hTotal]
    norm_num
  · rw [show (1.0 : ℚ) = 1 by norm_num, mul_comm]

/-- The shares that reports say are done. -/
def shares (rs : List Report) : Nat := (rs.map (·.done)).sum

theorem shares_append (rs qs : List Report) : shares (rs ++ qs) = shares rs + shares qs := by
  rw [shares, List.map_append, List.sum_append]
  rfl

theorem shares_replicate (n total : Nat) : shares (List.replicate n ⟨1, total⟩) = n := by
  simp [shares]

theorem sum_exact {rs : List Report} {total : Nat} (h : ∀ r ∈ rs, r.total = total) :
    (rs.map Report.exact).sum = shares rs / total := by
  induction rs with
  | nil => simp [shares]
  | cons r rs ih =>
    have hRest := ih fun q hq => h q (List.mem_cons_of_mem r hq)
    have hShares : shares (r :: rs) = r.done + shares rs := rfl
    rw [List.map_cons, List.sum_cons, hRest, Report.exact_eq, h r List.mem_cons_self, hShares]
    push_cast
    ring

theorem Session.sum_exact (s : Session) :
    s.exact.sum =
      (s.reading.map Report.exact).sum * 0.2 + (s.trying.map Report.exact).sum * 0.8 := by
  rw [← List.sum_map_mul_right, ← List.sum_map_mul_right, ← List.sum_append]
  rfl

/-! ## One trial -/

namespace Trial

theorem total_of_mem_reports {units total : Nat} {failing : Option Nat} {r : Report}
    (hr : r ∈ reports units total failing) : r.total = total := by
  cases failing with
  | none =>
    obtain ⟨-, rfl⟩ := List.mem_replicate.mp hr
    rfl
  | some i =>
    rw [reports, List.mem_append, List.mem_singleton] at hr
    rcases hr with hr | rfl
    · obtain ⟨-, rfl⟩ := List.mem_replicate.mp hr
      rfl
    · rfl

/-- The files up to the first that fails and the files that are skipped are all files. -/
theorem shares_reports {units total : Nat} {failing : Option Nat} (h : ∀ i ∈ failing, i < units) :
    shares (reports units total failing) = units := by
  cases failing with
  | none => exact shares_replicate units total
  | some i =>
    have hi := h i rfl
    have hSkipped : shares [⟨units - i - 1, total⟩] = units - i - 1 := by simp [shares]
    rw [reports, shares_append, shares_replicate, hSkipped]
    -- the file that fails is one of them, so the difference is not cut off at zero
    omega

theorem firstFailing_lt {catalog : Catalog} {base : Config} {corpus : Corpus} {c : Candidate} :
    ∀ i ∈ firstFailing catalog base corpus c, i < corpus.size := by
  intro i hi
  obtain ⟨hLt, -⟩ := List.findIdx?_eq_some_iff_getElem.mp hi
  exact hLt

namespace Plan

variable (p : Plan)

theorem total_of_mem_made {cs : List Candidate} {r : Report} (hr : r ∈ cs.flatMap p.made) :
    r.total = p.candidates * p.corpus.size := by
  obtain ⟨c, -, hr⟩ := List.mem_flatMap.mp hr
  exact total_of_mem_reports hr

theorem shares_made (c : Candidate) : shares (p.made c) = p.corpus.size :=
  shares_reports firstFailing_lt

theorem shares_flatMap_made (cs : List Candidate) :
    shares (cs.flatMap p.made) = cs.length * p.corpus.size := by
  induction cs with
  | nil => exact (Nat.zero_mul _).symm
  | cons c cs ih =>
    rw [List.flatMap_cons, shares_append, ih, shares_made, List.length_cons, Nat.succ_mul,
      Nat.add_comm]

theorem sum_exact_made (hUnits : 0 < p.corpus.size) (cs : List Candidate) :
    ((cs.flatMap p.made).map Report.exact).sum = cs.length / p.candidates := by
  have hNe : (p.corpus.size : ℚ) ≠ 0 := Nat.cast_ne_zero.mpr (Nat.ne_of_gt hUnits)
  rw [sum_exact fun r hr => p.total_of_mem_made hr, shares_flatMap_made, Nat.cast_mul, Nat.cast_mul,
    mul_div_mul_right _ _ hNe]

end Plan

/-! ## A run over the candidates -/

/-- The candidates of the rules in front of the first one that the catalog does not know. -/
def Plan.tried (p : Plan) (es : List RuleEntry) : List Candidate :=
  (es.takeWhile fun e => p.catalog.contains e.rule).flatMap (·.candidates)

/-- How a run over rules that is never cancelled comes out. -/
def Plan.verdict (p : Plan) (es : List RuleEntry) : Except Failure (List TrialResult) :=
  match es.find? fun e => !p.catalog.contains e.rule with
  | none => .ok ((p.tried es).map p.result)
  | some e => .error (.rule e.rule "not found in the rule catalog")

theorem runEntries_never (p : Plan) (hNever : p.cancellation = .never) (completed reported : Nat)
    (es : List RuleEntry) :
    runEntries p completed reported es = ⟨(p.tried es).flatMap p.made, p.verdict es⟩ := by
  have hFree (n : Nat) : p.cancellation.inForce n = false := by
    rw [hNever]
    rfl
  induction es generalizing completed reported with
  | nil => rfl
  | cons e es ih =>
    rw [Plan.verdict, Plan.tried, List.takeWhile_cons, List.find?_cons]
    cases hKnown : p.catalog.contains e.rule with
    | false =>
      rw [runEntries, hKnown]
      rfl
    | true =>
      rw [runEntries, if_pos hKnown, runCandidates_free p _ _ _ fun _ _ => hFree _, Run.andThen]
      simp only [ih, Plan.verdict, Plan.tried, if_true, Bool.not_true, List.flatMap_cons,
        List.flatMap_append, List.map_append]
      cases es.find? fun e => !p.catalog.contains e.rule with
      | none => rfl
      | some e => rfl

end Trial

namespace Run

variable {α β : Type}

theorem cons_ok {made : List Report} {a : α} {r : Run (List α)} {results : List α}
    (h : (cons made a r).outcome = .ok results) :
    ∃ rest, r.outcome = .ok rest ∧ a :: rest = results := by
  obtain ⟨reports, outcome⟩ := r
  cases outcome with
  | error f => cases h
  | ok rest => exact ⟨rest, rfl, Except.ok.inj h⟩

theorem map_ok {g : α → β} {r : Run α} {b : β} (h : (r.map g).outcome = .ok b) :
    ∃ a, r.outcome = .ok a ∧ g a = b := by
  obtain ⟨reports, outcome⟩ := r
  cases outcome with
  | error f => cases h
  | ok a => exact ⟨a, rfl, Except.ok.inj h⟩

end Run

namespace Trial

/-- A run that comes to its end has made all reports, whether it could have been cancelled or
not. -/
theorem reports_runCandidates_of_ok (p : Plan) {completed reported : Nat} {cs : List Candidate}
    {results : List TrialResult}
    (h : (runCandidates p completed reported cs).outcome = .ok results) :
    (runCandidates p completed reported cs).reports = cs.flatMap p.made := by
  induction cs generalizing completed reported results with
  | nil => rfl
  | cons c cs ih =>
    rw [runCandidates] at h ⊢
    split at h
    · cases h
    · obtain ⟨rest, hRest, -⟩ := Run.cons_ok h
      rw [if_neg ‹_›, List.flatMap_cons, ← ih hRest]
      rfl

end Trial

theorem Outcome.reports_discover_of_ok {catalog : Catalog} {corpus : Corpus} {base : Config}
    {cancellation : Cancellation} {earlier : Nat} {o : Outcome}
    (h : (discover catalog corpus base cancellation earlier).outcome = .ok o) :
    (discover catalog corpus base cancellation earlier).reports =
      (Registry.ofCatalog catalog).candidates.flatMap (Trial.Plan.made ⟨catalog, base, corpus,
        (Registry.ofCatalog catalog).candidateCount, earlier, cancellation⟩) := by
  rw [discover, Trial.survivors, Trial.run_ofCatalog] at h ⊢
  obtain ⟨survivors, hSurvivors, -⟩ := Run.map_ok h
  obtain ⟨results, hResults, -⟩ := Run.map_ok hSurvivors
  exact Trial.reports_runCandidates_of_ok _ hResults

/-! ## Reading the files -/

namespace Corpus

theorem readUnits_ok {p : Project} {total : Nat} {paths : List String} {us : List SourceUnit}
    (h : (readUnits p total paths).outcome = .ok us) :
    (readUnits p total paths).reports = List.replicate paths.length ⟨1, total⟩ ∧
      us.length = paths.length := by
  induction paths generalizing us with
  | nil =>
    cases h
    exact ⟨rfl, rfl⟩
  | cons path paths ih =>
    rw [readUnits] at h ⊢
    split at h
    · cases h
    · obtain ⟨rest, hRest, rfl⟩ := Run.cons_ok h
      obtain ⟨hReports, hLength⟩ := ih hRest
      refine ⟨?_, congrArg (· + 1) hLength⟩
      rw [Run.cons, hReports, List.length_cons, List.replicate_succ]
      rfl

variable [PathSearch] in
/-- A corpus that is read has files, and each of them has been reported as one share. -/
theorem load_ok {f : FileSelection} {p : Project} {patterns : List String} {corpus : Corpus}
    (h : (load f p patterns).outcome = .ok corpus) :
    0 < corpus.size ∧
      (load f p patterns).reports = List.replicate corpus.size ⟨1, corpus.size⟩ := by
  rw [load] at h ⊢
  split at h
  · cases h
  · cases h
  · rename_i paths hNonempty hPaths
    obtain ⟨us, hUnits, rfl⟩ := Run.map_ok h
    obtain ⟨hReports, hLength⟩ := readUnits_ok hUnits
    have hSize : (ofUnits us).size = paths.length := by
      rw [size, ofUnits, List.length_mergeSort, hLength]
    rw [hSize]
    refine ⟨List.length_pos_iff.mpr ?_, hReports⟩
    rintro rfl
    exact hNonempty rfl

end Corpus

/-! ## A whole discovery -/

theorem Registry.candidateCount_pos {catalog : Catalog} (h : catalog.rules ≠ []) :
    0 < (ofCatalog catalog).candidateCount := by
  obtain ⟨r, hr⟩ := List.exists_mem_of_ne_nil _ h
  rw [candidateCount, candidates_ofCatalog]
  exact List.length_pos_of_mem (List.mem_flatMap.mpr ⟨r, hr, r.bare_mem_candidates⟩)

namespace Session

variable [PathSearch] {catalog : Catalog} {f : FileSelection} {p : Project} {base : Config}
  {patterns : List String} {cancellation : Cancellation} {o : Outcome}

theorem run_of_load {corpus : Corpus} (h : (Corpus.load f p patterns).outcome = .ok corpus) :
    run catalog f p base patterns cancellation =
      let loading := Corpus.load f p patterns
      let trials := Outcome.discover catalog corpus base cancellation loading.reports.length
      ⟨loading.reports, trials.reports, trials.outcome⟩ := by
  rw [run, h]

theorem load_ok_of_run (h : (run catalog f p base patterns cancellation).outcome = .ok o) :
    ∃ corpus, (Corpus.load f p patterns).outcome = .ok corpus := by
  cases hLoad : (Corpus.load f p patterns).outcome with
  | error failure =>
    rw [run, hLoad] at h
    cases h
  | ok corpus => exact ⟨corpus, rfl⟩

theorem sum_exact_run (hRules : catalog.rules ≠ [])
    (h : (run catalog f p base patterns cancellation).outcome = .ok o) :
    (run catalog f p base patterns cancellation).exact.sum = 1 := by
  obtain ⟨corpus, hLoad⟩ := load_ok_of_run h
  obtain ⟨hUnits, hReading⟩ := Corpus.load_ok hLoad
  rw [run_of_load hLoad] at h ⊢
  have hCandidates : ((Registry.ofCatalog catalog).candidateCount : ℚ) ≠ 0 :=
    Nat.cast_ne_zero.mpr (Nat.ne_of_gt (Registry.candidateCount_pos hRules))
  have hSize : (corpus.size : ℚ) ≠ 0 := Nat.cast_ne_zero.mpr (Nat.ne_of_gt hUnits)
  have hLoading : ((Corpus.load f p patterns).reports.map Report.exact).sum = 1 := by
    rw [hReading, RuleScout.sum_exact fun r hr => by rw [List.eq_of_mem_replicate hr],
      shares_replicate, div_self hSize]
  have hTrials : ((Outcome.discover catalog corpus base cancellation
      (Corpus.load f p patterns).reports.length).reports.map Report.exact).sum = 1 := by
    rw [Outcome.reports_discover_of_ok h]
    exact (Trial.Plan.sum_exact_made _ hUnits _).trans (div_self hCandidates)
  rw [sum_exact, hLoading, hTrials]
  norm_num

end Session

/-- Progress adds up. Every candidate that is tried accounts for all files, and so the reports of
a run are the part of the candidates that it tries, which are those in front of the first rule
that the catalog does not know. A successful discovery reports one as a whole. -/
theorem progress_exact (catalog : Catalog) (base : Config) :
    (∀ (registry : Registry) (corpus : Corpus) (earlier : Nat),
      0 < registry.candidateCount → 0 < corpus.size →
      let run := Trial.run catalog registry corpus base .never earlier
      let known := fun e : RuleEntry => catalog.contains e.rule
      let tried := (registry.entries.takeWhile known).flatMap (·.candidates)
      let made := Trial.Plan.made ⟨catalog, base, corpus, registry.candidateCount, earlier, .never⟩
      run.reports = tried.flatMap made ∧
      (∀ r ∈ run.reports, r.exact = r.done * (1 / (registry.candidateCount * corpus.size))) ∧
      (∀ c ∈ tried, shares (made c) = corpus.size) ∧
      (run.reports.map Report.exact).sum = tried.length / registry.candidateCount ∧
      (∀ e, registry.entries.find? (!known ·) = some e →
        run.outcome = .error (.rule e.rule "not found in the rule catalog")) ∧
      ((∀ e ∈ registry.entries, known e = true) →
        (∃ results, run.outcome = .ok results) ∧ (run.reports.map Report.exact).sum = 1)) ∧
    ∀ f p patterns cancellation outcome, catalog.rules ≠ [] →
      (Session.run catalog f p base patterns cancellation).outcome = .ok outcome →
      (Session.run catalog f p base patterns cancellation).exact.sum = 1 := by
  constructor
  · intro registry corpus earlier hCandidates hUnits run known tried made
    let plan : Trial.Plan := ⟨catalog, base, corpus, registry.candidateCount, earlier, .never⟩
    have hRun : run = ⟨tried.flatMap made, plan.verdict registry.entries⟩ :=
      Trial.runEntries_never plan rfl 0 0 registry.entries
    have hSum : (run.reports.map Report.exact).sum = tried.length / registry.candidateCount := by
      rw [hRun]
      exact plan.sum_exact_made hUnits tried
    refine ⟨by rw [hRun], ?_, fun c _ => plan.shares_made c, hSum, ?_, fun hKnown => ⟨?_, ?_⟩⟩
    · intro r hr
      rw [hRun] at hr
      rw [Report.exact_eq, plan.total_of_mem_made hr, Nat.cast_mul]
    · intro e hUnknown
      rw [hRun, Trial.Plan.verdict, hUnknown]
    · have hNone : registry.entries.find? (!known ·) = none := by
        rw [List.find?_eq_none]
        exact fun e he => by simp [hKnown e he]
      refine ⟨tried.map plan.result, ?_⟩
      rw [hRun, Trial.Plan.verdict, hNone]
      rfl
    · have hTried : registry.entries.takeWhile known = registry.entries :=
        List.takeWhile_eq_self_iff.mpr hKnown
      have hAll : tried.length = registry.candidateCount := by
        rw [Registry.candidateCount, Registry.candidates, ← hTried]
      rw [hSum, hAll, div_self (Nat.cast_ne_zero.mpr (Nat.ne_of_gt hCandidates))]
  · intro f p patterns cancellation outcome hRules h
    exact Session.sum_exact_run hRules h

/-- A file that is asked for by its name, in a directory where nothing else is. -/
theorem Corpus.load_lone_file :
    ∃ u, (load ⟨none, some [], none⟩ ⟨.directory [("a.js", .file (some "x;\n"))], "/"⟩
      ["a.js"]).outcome = .ok (.ofUnits [u]) := by
  generalize hTree : FileTree.directory [("a.js", .file (some "x;\n"))] = tree
  have hSteps : FileTree.steps "/a.js" = ["a.js"] := by
    rw [FileTree.steps_eq]
    decide +kernel
  have hIgnoreSteps : FileTree.steps (Path.join "/" ignoreFileName) = [".lintseedignore"] := by
    rw [FileTree.steps_eq]
    decide +kernel
  have hGiven : Path.join "/" "a.js" = "/a.js" := by decide +kernel
  have hFound : Path.join "/" "/a.js" = "/a.js" := by decide +kernel
  have hShown : Path.relativeTo "/" "/a.js" = "a.js" := by
    simp only [Path.relativeTo, Path.parts, Path.pieces_eq]
    decide +kernel
  have hFile : tree.isFile "/a.js" = true := by
    rw [← hTree, FileTree.isFile, FileTree.node?, FileTree.resolve, hSteps]
    rfl
  have hRead : tree.read "/a.js" = .ok "x;\n" := by
    rw [← hTree, FileTree.read, FileTree.resolve, hSteps]
    rfl
  have hIgnored : FileSelection.ignored ⟨tree, "/"⟩ = [] := by
    rw [FileSelection.ignored, Project.absolute, FileTree.read, FileTree.resolve, hIgnoreSteps,
      ← hTree]
    rfl
  have hResolve : FileSelection.resolve ⟨none, some [], none⟩ ⟨tree, "/"⟩ ["a.js"] =
      .ok ["/a.js"] := by
    have hDot : ¬"a.js" = "." := by decide
    have hPatterns : FileSelection.patterns ⟨none, some [], none⟩ ["a.js"] = ["a.js"] := rfl
    rw [FileSelection.resolve, FileSelection.foundAll, hPatterns, hIgnored, List.foldlM_cons]
    simp only [FileSelection.found, hDot, if_false, Project.absolute, hGiven, hFile, if_true]
    rfl
  obtain ⟨u, hParse⟩ : ∃ u, SourceUnit.parse "a.js" "x;\n" = .ok u := by
    have hSome : (SourceUnit.parse "a.js" "x;\n").toOption.isSome = true := by decide +kernel
    obtain ⟨u, hu⟩ := Option.isSome_iff_exists.mp hSome
    exact ⟨u, toOption_eq_some_iff.mp hu⟩
  refine ⟨u, ?_⟩
  simp only [load, hResolve, readUnits, readUnit, Project.absolute, hFound, hRead, Project.shown,
    hShown, hParse]
  rfl

theorem progress_exact_linebreaks :
    let catalog : Catalog := ⟨[Layout.linebreakStyle], by decide⟩
    let bare : SourceUnit := ⟨"a.js", "", #[], ⟨#[], []⟩, [⟨1, "", none, false, []⟩]⟩
    let ended : SourceUnit :=
      ⟨"b.js", "\n", #[⟨⟨.newline, "\n", 1⟩, 0, 1⟩], ⟨#[[]], []⟩, [⟨1, "", none, false, []⟩]⟩
    let run := Trial.run catalog (.ofCatalog catalog) ⟨[bare, ended]⟩ {} .never 0
    let tree := FileTree.directory [("a.js", .file (some "x;\n"))]
    let session := Session.run catalog ⟨none, some [], none⟩ ⟨tree, "/"⟩ {} ["a.js"] .never
    SourceUnit.parse "a.js" "" = .ok bare ∧ SourceUnit.parse "b.js" "\n" = .ok ended ∧
      run.reports.length = 7 ∧ (run.reports.map Report.exact).sum = 1 ∧
      (∃ o, session.outcome = .ok o) ∧ session.exact.sum = 1 := by
  intro catalog bare ended run tree session
  obtain ⟨hTrials, hSessions⟩ := progress_exact catalog {}
  obtain ⟨u, hLoad⟩ := Corpus.load_lone_file
  have hOutcome : session.outcome = .ok (Outcome.plain catalog (.ofUnits [u]) {}) :=
    (congrArg Session.outcome (Session.run_of_load hLoad)).trans
      (Outcome.outcome_discover catalog (.ofUnits [u]) {} _)
  refine ⟨SourceUnit.parse_empty _, SourceUnit.parse_newline _, by decide +kernel, ?_,
    ⟨_, hOutcome⟩, ?_⟩
  · obtain ⟨-, -, -, -, -, hAll⟩ :=
      hTrials (.ofCatalog catalog) ⟨[bare, ended]⟩ 0 (by decide) (by decide)
    exact (hAll (by decide)).2
  · exact hSessions _ _ _ _ _ (List.cons_ne_nil _ _) hOutcome

/-- A rule that the catalog does not know ends the run, here behind one of two candidates. -/
theorem progress_of_unknown_rule :
    let metadata : RuleMetadata := { id := "a", name := "", description := "", category := .style }
    let known : Rule := { metadata, check := fun _ _ => [] }
    let catalog : Catalog := ⟨[known], by decide⟩
    let registry : Registry := ⟨[.ofMetadata known.metadata, ⟨"b", false, [⟨"b", []⟩]⟩]⟩
    let bare : SourceUnit := ⟨"a.js", "", #[], ⟨#[], []⟩, [⟨1, "", none, false, []⟩]⟩
    let run := Trial.run catalog registry ⟨[bare]⟩ {} .never 0
    SourceUnit.parse "a.js" "" = .ok bare ∧ 0 < registry.candidateCount ∧
      run.outcome = .error (.rule "b" "not found in the rule catalog") ∧
      (run.reports.map Report.exact).sum = 1 / 2 ∧ (run.reports.map Report.exact).sum ≠ 1 := by
  intro metadata known catalog registry bare run
  have hReports : run.reports = [⟨1, 2⟩] := by decide +kernel
  have hSum : (run.reports.map Report.exact).sum = 1 / 2 := by
    rw [hReports, List.map_singleton, List.sum_singleton, Report.exact_eq]
    norm_num
  refine ⟨SourceUnit.parse_empty _, by decide, rfl, hSum, ?_⟩
  rw [hSum]
  norm_num

end RuleScout
