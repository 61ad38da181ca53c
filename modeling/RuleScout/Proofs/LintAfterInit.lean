import RuleScout.Proofs.ConfigInForce
import RuleScout.Proofs.Init
import RuleScout.Rule.Builtin.Semi

/-!
# Linting with what has been discovered

After a discovery the configuration is in the file that the format asks for. Unless another
configuration file of the directory comes before that one it is in force, and then the files of the
discovery only break rules that had to be kept without a clean candidate.
-/

set_option autoImplicit false

namespace RuleScout

variable {p : Project} {r l : Location} {name text : String}

/-! ## Runs that pass -/

theorem InitOptions.target_eq {o : InitOptions} (hRooted : p.Rooted r) (hOutput : o.output = none) :
    o.target p = .file (entryPath r o.format.fileName) := by
  rw [target, hOutput, hRooted.absolute_name o.format.isName_fileName]

theorem InitOptions.admits_of_absent {o : InitOptions} (hRooted : p.Rooted r)
    (hOutput : o.output = none) (hNone : p.tree.at? (r ++ [o.format.fileName]) = none) :
    o.admits p = .ok () := by
  rw [admits_eq_ok_iff, target_eq hRooted hOutput]
  rintro path hPath hPresent
  cases hPath
  rw [p.absolute_entry, FileTree.isPresent,
    hRooted.node?_entry o.format.isName_fileName (by simp [hNone]), hNone] at hPresent
  cases hPresent

/-- A run that passes has written the file of the format. -/
theorem written_of_passed [PathSearch] [TextFormats] {catalog : Catalog} {ink : Ink}
    {o : InitOptions} {g : GlobalOptions}
    {timer : Cancellation} (hRooted : p.Rooted r) (hOutput : o.output = none)
    (hPassed : ((Command.init o).run g ink catalog p timer).verdict = .passed) :
    ∃ outcome text l, p.discover catalog g.config o timer = .ok outcome ∧
      TextFormats.render o.format (outcome.configFor catalog o) = .ok text ∧
      p.tree.endOf (entryPath r o.format.fileName) = some l ∧
      FileTree.Rewritten l text p.tree ((Command.init o).run g ink catalog p timer).tree := by
  have hTarget := InitOptions.target_eq hRooted hOutput
  have hAdmits (outcome : Outcome) (h : p.discover catalog g.config o timer = .ok outcome) :
      o.admits p = .ok () := (Project.discover_eq_ok_iff.mp h).1
  rcases Effect.ofInit_all_or_nothing catalog ink hAdmits
    with ⟨-, f, hFailed⟩ | ⟨-, outcome, text, hDiscover, hRender, hDelivered⟩
  · cases hPassed.symm.trans hFailed
  · refine ⟨outcome, text, ?_⟩
    cases hDelivered with
    | printed hPrinted => cases hTarget.symm.trans hPrinted
    | file path l hFile hEnd _ hTree =>
      cases hTarget.symm.trans hFile
      rw [p.absolute_entry] at hEnd
      exact ⟨l, hDiscover, hRender, hEnd, hTree⟩

theorem Project.discover_entry [PathSearch] [TextFormats] {catalog : Catalog}
    {named : Option String} {o : InitOptions}
    {timer : Cancellation} {base : Config} {u : SourceUnit} (hPatterns : o.allPatterns = [name])
    (hTimeout : o.timeout = none) (hAdmits : o.admits p = .ok ())
    (hBase : p.loadConfig named p.root = .ok base)
    (hResolve : base.fileSelection.resolve p [name] = .ok [entryPath r name])
    (hUnit : Corpus.readUnit p (entryPath r name) = .ok u) :
    p.discover catalog named o timer = .ok (.plain catalog (.ofUnits [u]) base) := by
  have hLoad : (Corpus.load base.fileSelection p [name]).outcome = .ok (.ofUnits [u]) := by
    rw [Corpus.load, hResolve]
    simp only [Corpus.readUnits, hUnit]
    rfl
  have hNever : o.cancellation timer = .never := by rw [InitOptions.cancellation, hTimeout]
  refine Project.discover_eq_ok_iff.mpr ⟨hAdmits, base, hBase, ?_⟩
  rw [hPatterns, hNever, Session.run_of_load hLoad]
  exact Outcome.outcome_discover catalog _ base _

/-- What has been discovered and can be written is written, if its place is free or a file. -/
theorem passed_of_discover [PathSearch] [TextFormats] {catalog : Catalog} {o : InitOptions}
    {g : GlobalOptions}
    {timer : Cancellation} {outcome : Outcome} (ink : Ink) (hRooted : p.Rooted r)
    (hOutput : o.output = none) (hDiscover : p.discover catalog g.config o timer = .ok outcome)
    (hRender : TextFormats.render o.format (outcome.configFor catalog o) = .ok text)
    (hPlace : p.tree.at? (r ++ [o.format.fileName]) = none ∨
      ∃ old, p.tree.at? (r ++ [o.format.fileName]) = some (.file old)) :
    ((Command.init o).run g ink catalog p timer).verdict = .passed ∧
      ((Command.init o).run g ink catalog p timer).tree =
        p.tree.put (r ++ [o.format.fileName]) (.file (some text)) := by
  obtain ⟨entries, hAt⟩ := hRooted.directory
  have hTarget := InitOptions.target_eq hRooted hOutput
  have hWrite : p.write (entryPath r o.format.fileName) text =
      .ok (p.tree.put (r ++ [o.format.fileName]) (.file (some text))) := by
    rw [Project.write_eq_ok_iff, p.absolute_entry]
    exact FileTree.write_entry hRooted.names o.format.isName_fileName hAt hPlace text
  rw [Command.run, hDiscover]
  simp only [Effect.ofInit, hRender, hTarget, Effect.deliver_file, hWrite, and_self]

/-! ## The promise of a discovery -/

/-- What a discovery without a named output and without a named configuration leaves behind. The
configuration file of the format holds its text, and it is in force in the directory exactly if
no other one stands before it. Where it is in force and is read back as it was written, linting
files of the discovery finds violations of the rules that were kept by force and of no others. -/
theorem lint_after_init [PathSearch] [PathSearch.KeepsAbsolute] [TextFormats] (p : Project)
    (r : Location) (catalog : Catalog) (ink : Ink)
    (o : InitOptions) (g : GlobalOptions) (timer : Cancellation) (hRooted : p.Rooted r)
    (hOutput : o.output = none) (hConfig : g.config = none)
    (hPassed : ((Command.init o).run g ink catalog p timer).verdict = .passed) :
    let after : Project := ⟨((Command.init o).run g ink catalog p timer).tree, p.root⟩
    let target := entryPath r o.format.fileName
    ∃ base outcome text analysed,
      p.loadConfig none p.root = .ok base ∧
      base.fileSelection.resolve p o.allPatterns = .ok analysed ∧
      (Session.run catalog base.fileSelection p base o.allPatterns
        (o.cancellation timer)).outcome = .ok outcome ∧
      TextFormats.render o.format (outcome.configFor catalog o) = .ok text ∧
      after.tree.read target = .ok text ∧
      (after.discoverConfig p.root = .ok (some target) ↔ p.Unshadowed r o.format) ∧
      (p.Unshadowed r o.format → ∀ c, TextFormats.parse? o.format text = some c →
        after.loadConfig none p.root = .ok c) ∧
      (p.Unshadowed r o.format →
        TextFormats.parse? o.format text = some (outcome.configFor catalog o) →
        ∀ patterns files report, base.fileSelection.resolve after patterns = .ok files →
          (∀ path ∈ files, path ∈ analysed ∧ p.tree.endOf path ≠ p.tree.endOf target) →
          after.lint catalog none patterns = .ok report → ∀ f ∈ report.findings,
            ∃ d ∈ outcome.decisions, d.rule = f.rule ∧ d.decision = .forcedError) := by
  intro after target
  obtain ⟨outcome, text, l, hDiscover, hRender, hEnd, hTree⟩ :=
    written_of_passed hRooted hOutput hPassed
  obtain ⟨-, base, hBase, hOutcome⟩ := Project.discover_eq_ok_iff.mp hDiscover
  rw [hConfig] at hBase
  obtain ⟨corpus, hLoad, hPlain⟩ := Session.plain_of_ok hOutcome
  obtain ⟨analysed, hAnalysed⟩ := Corpus.resolve_of_load hLoad
  have hRead : after.tree.read target = .ok text :=
    FileTree.read_eq_ok_iff.mpr (hTree.node?_self hEnd)
  have hForce := discoverConfig_rewritten_iff hRooted hEnd hTree
  have hLoaded (hFirst : p.Unshadowed r o.format) (c : Config)
      (hParse : TextFormats.parse? o.format text = some c) :
      after.loadConfig none p.root = .ok c := by
    refine loadConfig_of_discover (hForce.mpr hFirst) (Format.ofPath?_entryPath hRooted.names _) ?_
      hParse
    rw [after.absolute_entry]
    exact hRead
  refine ⟨base, outcome, text, analysed, hBase, hAnalysed, hOutcome, hRender, hRead, hForce,
    hLoaded, ?_⟩
  intro hFirst hParse patterns files report hFiles hKnown hLint f hFinding
  obtain ⟨c, linted, hConfigured, hLinted, -, rfl⟩ := Project.lint_eq_ok_iff.mp hLint
  cases (hLoaded hFirst _ hParse).symm.trans hConfigured
  rw [hPlain, Outcome.fileSelection_configFor] at hLinted
  cases hFiles.symm.trans hLinted
  obtain ⟨path, hPath, hOwn⟩ := List.mem_flatMap.mp (List.mem_mergeSort.mp hFinding)
  obtain ⟨hMem, hOther⟩ := hKnown path hPath
  have hRoot : Path.isAbsolute p.root = true := by
    rw [hRooted.root]
    exact Location.isAbsolute_toPath r
  rw [hEnd] at hOther
  obtain ⟨u, hUnit, hVerify⟩ := Linter.exists_unit_of_mem_verifyFile hRoot hLoad hAnalysed hMem
    (fun _ => read_rewritten hTree hOther) hOwn
  rw [hPlain] at hVerify ⊢
  exact Outcome.forced_of_mem_verify (Outcome.rules_resolve_configFor o) hUnit hVerify

/-! ## A project with one file -/

namespace Sample

/-- A configuration that forbids semicolons. -/
def forbidding : Config where
  files := some { excluded := some [] }
  rules := .ofList [("semi", ⟨.error, [.string "never"]⟩)]

def forbiddingText : String :=
  "\x7b\"files\":\x7b\"exclude\":[]\x7d,\"rules\":\x7b\"semi\":[\"error\",\"never\"]\x7d\x7d"

def catalog : Catalog := ⟨[Semi.rule], by decide⟩

/-- A configuration, a file with a semicolon, and what else there is. -/
def project (text : String) (more : List (String × FileTree)) : Project where
  tree := .directory
    ([(".lintseedrc.json", .file (some text)), ("a.js", .file (some "x;\n"))] ++ more)
  root := "/"

variable (text : String) (more : List (String × FileTree))

theorem rooted : (project text more).Rooted [] where
  root := show "/" = Location.toPath [] by decide +kernel
  names := nofun
  directory := ⟨_, rfl⟩

theorem node?_config :
    (project text more).tree.node? (entryPath [] ".lintseedrc.json") = some (.file (some text)) :=
  (rooted text more).node?_entry (by decide) fun _ => nofun

theorem node?_source :
    (project text more).tree.node? (entryPath [] "a.js") = some (.file (some "x;\n")) :=
  (rooted text more).node?_entry (by decide) fun _ => nofun

theorem loadConfig_eq :
    (project forbiddingText more).loadConfig none "/" = .ok forbidding := by
  have hFirst : configFileNames.find?
      (fun name => (project forbiddingText more).tree.isFile (entryPath [] name)) =
      some ".lintseedrc.json" :=
    List.find?_cons_of_pos (FileTree.isFile_iff.mpr ⟨_, node?_config _ more⟩)
  have hParse : Format.json.parse? forbiddingText = some forbidding := by decide +kernel
  refine loadConfig_of_discover (discoverConfig_of_first (rooted _ more) hFirst)
    (Format.ofPath?_entryPath (rooted forbiddingText more).names .json) ?_ hParse
  rw [(project forbiddingText more).absolute_entry]
  exact FileTree.read_eq_ok_iff.mpr (node?_config _ more)

theorem resolve_eq (hMore : more.lookup ignoreFileName = none) :
    forbidding.fileSelection.resolve (project text more) ["a.js"] = .ok [entryPath [] "a.js"] := by
  have hAbsent : (project text more).tree.at? ([] ++ [ignoreFileName]) = none := by
    rw [List.nil_append, project, FileTree.at?_cons, List.lookup_append, hMore]
    rfl
  have hIgnored := FileSelection.ignored_of_absent (rooted text more) hAbsent
  have hNone : forbidding.fileSelection.compileExcluded = .ok [] := rfl
  refine FileSelection.resolve_entry (rooted text more) (by decide)
    (FileTree.isFile_iff.mpr ⟨_, node?_source text more⟩) hNone ?_
  rw [hIgnored]
  rfl

theorem readUnit_eq {u : SourceUnit} (hParse : SourceUnit.parse "a.js" "x;\n" = .ok u) :
    Corpus.readUnit (project text more) (entryPath [] "a.js") = .ok u := by
  have hShown : (project text more).shown (entryPath [] "a.js") = "a.js" := by
    have hPath : entryPath [] "a.js" = "/a.js" := by decide +kernel
    rw [hPath]
    simp only [Project.shown, project, Path.relativeTo, Path.parts, Path.pieces_eq]
    decide +kernel
  refine Corpus.readUnit_eq_ok_iff.mpr ⟨"x;\n", ?_, by rw [hShown, hParse]⟩
  rw [(project text more).absolute_entry]
  exact FileTree.read_eq_ok_iff.mpr (node?_source text more)

theorem discover_eq {u : SourceUnit} {o : InitOptions} {timer : Cancellation}
    (hParse : SourceUnit.parse "a.js" "x;\n" = .ok u) (hPatterns : o.patterns = ["a.js"])
    (hTimeout : o.timeout = none) (hAdmits : o.admits (project forbiddingText []) = .ok ()) :
    (project forbiddingText []).discover catalog none o timer =
      .ok (.plain catalog (.ofUnits [u]) forbidding) := by
  have hAll : o.allPatterns = ["a.js"] := by
    rw [InitOptions.allPatterns, hPatterns]
    decide +kernel
  exact Project.discover_entry hAll hTimeout hAdmits (loadConfig_eq []) (resolve_eq _ [] rfl)
    (readUnit_eq _ [] hParse)

theorem endOf_ne :
    (project text more).tree.endOf (entryPath [] "a.js") ≠
      (project text more).tree.endOf (entryPath [] ".lintseedrc.json") := by
  have hRoot := FileTree.at?_nil (project text more).tree
  have hSource : (project text more).tree.at? ["a.js"] = some (.file (some "x;\n")) := rfl
  have hConfig : (project text more).tree.at? [".lintseedrc.json"] = some (.file (some text)) := rfl
  rw [FileTree.endOf_toPath (List.forall_mem_nil _) (by decide) hRoot (by simp [hSource]),
    FileTree.endOf_toPath (List.forall_mem_nil _) (by decide) hRoot (by simp [hConfig])]
  decide

/-- The file keeps to its semicolon. -/
theorem exists_unit :
    ∃ u, SourceUnit.parse "a.js" "x;\n" = .ok u ∧
      let outcome := Outcome.plain catalog (.ofUnits [u]) forbidding
      outcome.config ≠ forbidding ∧ (∀ d ∈ outcome.decisions, d.decision ≠ .forcedError) ∧
      (∃ f ∈ Linter.verify catalog u forbidding, f.isError = true) ∧
      (Format.json.render outcome.config).toOption.bind Format.json.parse? = some outcome.config :=
  exists_ok (by decide +kernel)

end Sample

theorem lint_after_init_forced :
    let o : InitOptions := { patterns := ["a.js"], force := true }
    let p := Sample.project Sample.forbiddingText []
    let run := (Command.init o).run {} ⟨false⟩ Sample.catalog p .never
    let after : Project := ⟨run.tree, p.root⟩
    p.Rooted [] ∧ o.output = none ∧ run.verdict = .passed ∧ p.Unshadowed [] o.format ∧
      ∃ outcome, p.discover Sample.catalog none o .never = .ok outcome ∧
        after.loadConfig none p.root = .ok (outcome.configFor Sample.catalog o) ∧
        ∃ report, after.lint Sample.catalog none ["a.js"] = .ok report ∧ report.findings = [] := by
  intro o p run after
  obtain ⟨u, hParse, -, hQuiet, -, hRestored⟩ := Sample.exists_unit
  have hRooted : p.Rooted [] := Sample.rooted _ _
  have hAdmits : o.admits p = .ok () := InitOptions.admits_eq_ok_iff.mpr fun _ _ _ => rfl
  have hDiscover : p.discover Sample.catalog none o .never = _ :=
    Sample.discover_eq hParse rfl rfl hAdmits
  have hOld : p.tree.at? ([] ++ [o.format.fileName]) =
      some (.file (some Sample.forbiddingText)) := rfl
  obtain ⟨hPassed, hTree⟩ :=
    passed_of_discover ⟨false⟩ (g := {}) hRooted rfl hDiscover rfl (.inr ⟨_, hOld⟩)
  have hFirst : p.Unshadowed [] o.format := p.unshadowed_json []
  obtain ⟨base, outcome, text, analysed, hBase, hAnalysed, hOutcome, hRender, -, -, hLoaded,
    hFound⟩ :=
    lint_after_init p [] Sample.catalog ⟨false⟩ o {} .never hRooted rfl rfl hPassed
  obtain ⟨-, base', hBase', hPlain⟩ := Project.discover_eq_ok_iff.mp hDiscover
  cases hBase'.symm.trans (Sample.loadConfig_eq [])
  cases hBase.symm.trans hBase'
  cases hOutcome.symm.trans hPlain
  cases hAnalysed.symm.trans (Sample.resolve_eq Sample.forbiddingText [] rfl)
  have hRead : o.format.parse? text =
      some ((Outcome.plain Sample.catalog (.ofUnits [u]) Sample.forbidding).configFor
        Sample.catalog o) := by
    have hText : Format.json.render
        (Outcome.plain Sample.catalog (.ofUnits [u]) Sample.forbidding).config = .ok text := hRender
    rw [hText] at hRestored
    exact hRestored
  have hInForce := hLoaded hFirst _ hRead
  have hAfter : after = Sample.project text [] := by
    cases hRender
    exact congrArg (Project.mk · p.root) hTree
  have hFiles :
      Sample.forbidding.fileSelection.resolve after ["a.js"] = .ok [entryPath [] "a.js"] :=
    hAfter ▸ Sample.resolve_eq text [] rfl
  have hKnown : ∀ path ∈ [entryPath [] "a.js"], path ∈ [entryPath [] "a.js"] ∧
      p.tree.endOf path ≠ p.tree.endOf (entryPath [] o.format.fileName) := by
    intro path hPath
    cases List.mem_singleton.mp hPath
    exact ⟨List.mem_singleton_self _, Sample.endOf_ne _ _⟩
  have hReport : after.lint Sample.catalog none ["a.js"] = .ok _ :=
    Project.lint_eq_ok_iff.mpr ⟨_, _, hInForce, (Outcome.fileSelection_configFor o).symm ▸ hFiles,
      List.cons_ne_nil _ _, rfl⟩
  refine ⟨hRooted, rfl, hPassed, hFirst, _, hDiscover, hInForce, _, hReport, ?_⟩
  rw [List.eq_nil_iff_forall_not_mem]
  intro f hf
  obtain ⟨d, hd, -, hForced⟩ := hFound hFirst hRead ["a.js"] _ _ hFiles hKnown hReport f hf
  exact hQuiet d hd hForced

/-- An older configuration of another format stands before the one that has just been written,
and linting with it finds what it should not find. -/
theorem lint_after_init_shadowed :
    let o : InitOptions := { patterns := ["a.js"], format := .yaml }
    let p := Sample.project Sample.forbiddingText []
    let run := (Command.init o).run {} ⟨false⟩ Sample.catalog p .never
    let after : Project := ⟨run.tree, p.root⟩
    p.Rooted [] ∧ run.verdict = .passed ∧ after.loadConfig none p.root = .ok Sample.forbidding ∧
      ∃ outcome, p.discover Sample.catalog none o .never = .ok outcome ∧
        outcome.configFor Sample.catalog o ≠ Sample.forbidding ∧
        (∀ d ∈ outcome.decisions, d.decision ≠ .forcedError) ∧
        ∃ report, after.lint Sample.catalog none ["a.js"] = .ok report ∧
          ∃ f ∈ report.findings, f.isError = true := by
  intro o p run after
  obtain ⟨u, hParse, hOther, hQuiet, ⟨f, hFinding, hError⟩, -⟩ := Sample.exists_unit
  have hRooted : p.Rooted [] := Sample.rooted _ _
  have hDiscover : p.discover Sample.catalog none o .never = _ :=
    Sample.discover_eq hParse rfl rfl (InitOptions.admits_of_absent hRooted rfl rfl)
  have hNew : p.tree.at? ([] ++ [o.format.fileName]) = none := rfl
  obtain ⟨hPassed, hTree⟩ :=
    passed_of_discover ⟨false⟩ (g := {}) hRooted rfl hDiscover rfl (.inl hNew)
  have hAfter :
      after = Sample.project Sample.forbiddingText [(".lintseedrc.yaml", .file (some _))] :=
    congrArg (Project.mk · p.root) hTree
  have hLoaded : after.loadConfig none p.root = .ok Sample.forbidding :=
    hAfter ▸ Sample.loadConfig_eq _
  have hFiles :
      Sample.forbidding.fileSelection.resolve after ["a.js"] = .ok [entryPath [] "a.js"] :=
    hAfter ▸ Sample.resolve_eq _ _ rfl
  have hUnit : Corpus.readUnit after (entryPath [] "a.js") = .ok u :=
    hAfter ▸ Sample.readUnit_eq _ _ hParse
  have hPlain : Sample.forbidding.resolve Sample.catalog = Sample.forbidding := rfl
  have hReport : after.lint Sample.catalog none ["a.js"] = .ok _ :=
    Project.lint_eq_ok_iff.mpr ⟨_, _, hLoaded, hFiles, List.cons_ne_nil _ _, rfl⟩
  refine ⟨hRooted, hPassed, hLoaded, _, hDiscover, ?_, hQuiet, _, hReport, f, ?_, hError⟩
  · rw [Outcome.configFor, if_neg Bool.false_ne_true]
    exact hOther
  rw [hPlain, Linter.verifyFiles, List.mem_mergeSort, List.flatMap_singleton,
    Linter.verifyFile_of_readUnit (after.absolute_entry [] "a.js") hUnit]
  exact hFinding

end RuleScout
