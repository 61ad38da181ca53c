import RuleScout.Command.Init
import RuleScout.Proofs.Completed
import RuleScout.Proofs.Recommended
import RuleScout.Proofs.SelectedPaths

/-!
# The configuration in force

In a directory with a configuration file the first name of one counts. After one file of the
directory has been written it is in force exactly if no other one stands before it. A discovered
configuration has the same rules in force in whichever form it is written.
-/

set_option autoImplicit false

namespace RuleScout

variable {p : Project} {r l : Location} {name text : String} {t t' : FileTree}

/-! ## The nearest configuration -/

theorem entryPath_injective {name' : String} (h : entryPath r name = entryPath r name') :
    name = name' := by
  rw [entryPath, entryPath, Location.toPath_concat, Location.toPath_concat] at h
  exact (String.append_right_inj _).mp h

theorem isName_of_mem (hName : name ∈ configFileNames) : IsName name := by
  revert name
  decide

theorem Format.fileName_mem (f : Format) : f.fileName ∈ configFileNames := by
  cases f <;> decide

theorem Format.isName_fileName (f : Format) : IsName f.fileName := isName_of_mem f.fileName_mem

theorem Location.ascending_head (l : Location) : ∃ above, l.ascending = l :: above := by
  induction l with
  | nil => exact ⟨[], rfl⟩
  | cons name l ih =>
    obtain ⟨above, hAbove⟩ := ih
    rw [ascending, hAbove]
    exact ⟨_, rfl⟩

/-- In a directory that has a configuration file, the first name of one counts. -/
theorem discoverConfig_of_first (h : p.Rooted r)
    (hFirst : configFileNames.find? (fun name => p.tree.isFile (entryPath r name)) = some name) :
    p.discoverConfig p.root = .ok (some (entryPath r name)) := by
  obtain ⟨above, hAbove⟩ := r.ascending_head
  have hHere : p.tree.configIn? r = some (r ++ [name]) := by
    rw [FileTree.configIn?, List.find?_map]
    exact congrArg (Option.map (r ++ [·])) hFirst
  rw [Project.discoverConfig, h.resolve_root]
  simp only [FileTree.nearestConfig?, hAbove, List.findSome?_cons, hHere, Option.map_some]

theorem find?_eq_some_iff_takeWhile {α : Type} [DecidableEq α] (q : α → Bool) {xs : List α} {x : α}
    (hMem : x ∈ xs) (hx : q x = true) :
    xs.find? q = some x ↔ ∀ y ∈ xs.takeWhile (· ≠ x), q y = false := by
  induction xs with
  | nil => cases hMem
  | cons y ys ih =>
    by_cases hSame : y = x
    · subst hSame
      simp [hx]
    · have hLater : x ∈ ys := (List.mem_cons.mp hMem).resolve_left (Ne.symm hSame)
      rw [List.takeWhile_cons_of_pos (by simpa using hSame), List.forall_mem_cons, ← ih hLater]
      cases hy : q y with
      | true => simp [hy, hSame]
      | false => simp [hy]

/-! ## The format of a file -/

theorem Path.fileName?_entryPath (hNames : ∀ name ∈ r, IsName name) (hName : IsName name) :
    Path.fileName? (entryPath r name) = some name := by
  have hAll : ∀ n ∈ r ++ [name], IsName n := by
    simpa [or_imp, forall_and] using ⟨hNames, hName⟩
  rw [Path.fileName?, Path.parts, Location.pieces_toPath hAll, Location.isAbsolute_toPath,
    if_pos rfl]
  have hNamed : ((r ++ [name]).filter (· ≠ ".")).map Path.partOf =
      (r.filter (· ≠ ".")).map Path.partOf ++ [.name name] := by
    simp [hName.not_here, Path.partOf, hName.not_up]
  rw [hNamed, ← List.cons_append, List.getLast?_concat]

theorem Format.ofPath?_entryPath (hNames : ∀ name ∈ r, IsName name) (f : Format) :
    Format.ofPath? (entryPath r f.fileName) = some f := by
  have hSplit : f.fileName.splitOn "." =
      (f.fileName.toList.splitOnP (· == '.')).map String.ofList := splitOn_singleton _ '.'
  rw [Format.ofPath?, Path.extension?, Path.fileName?_entryPath hNames f.isName_fileName,
    Option.bind_eq_bind, Option.bind_some, hSplit]
  cases f <;> decide

/-! ## The tree after a write -/

theorem isFile_rewritten (hTree : FileTree.Rewritten l text t t') (path : String) :
    t'.isFile path = true ↔ t.isFile path = true ∨ t.endOf path = some l := by
  by_cases hEnd : t.endOf path = some l
  · simp only [hEnd, or_true, iff_true]
    exact FileTree.isFile_iff.mpr ⟨_, hTree.node?_self hEnd⟩
  · have hAlike := hTree.alike_node? hEnd
    simp only [hEnd, or_false, FileTree.isFile_iff]
    generalize t.node? path = node, t'.node? path = node' at hAlike
    cases hAlike <;> simp

theorem read_rewritten (hTree : FileTree.Rewritten l text t t') {path content : String}
    (hEnd : t.endOf path ≠ some l) (hRead : t.read path = .ok content) :
    t'.read path = .ok content := by
  rw [FileTree.read_eq_ok_iff] at hRead ⊢
  have hAlike := hTree.alike_node? hEnd
  rw [hRead] at hAlike
  generalize t'.node? path = node' at hAlike
  cases hAlike
  rfl

theorem Project.Rooted.rewritten (h : p.Rooted r) (hTree : FileTree.Rewritten l text p.tree t') :
    (⟨t', p.root⟩ : Project).Rooted r where
  root := h.root
  names := h.names
  directory := by
    obtain ⟨entries, hAt⟩ := h.directory
    have hOther : r ≠ l := by
      rintro rfl
      rcases hTree.before with hNone | ⟨old, hOld⟩
      · cases hAt.symm.trans hNone
      · cases hAt.symm.trans hOld
    have hAlike := hTree.elsewhere r hOther
    rw [hAt] at hAlike
    generalize t'.at? r = node at hAlike
    cases hAlike with
    | directory _ entries' => exact ⟨entries', rfl⟩

/-- No configuration file stands before the one of the format, and no link would be one once
that file is there. -/
def Project.Unshadowed (p : Project) (r : Location) (f : Format) : Prop :=
  ∀ name ∈ configFileNames.takeWhile (· ≠ f.fileName),
    p.tree.isFile (entryPath r name) = false ∧
      p.tree.endOf (entryPath r name) ≠ p.tree.endOf (entryPath r f.fileName)

theorem Project.unshadowed_json (p : Project) (r : Location) : p.Unshadowed r .json :=
  fun _ hName => nomatch hName

theorem discoverConfig_rewritten_iff {f : Format} (h : p.Rooted r)
    (hEnd : p.tree.endOf (entryPath r f.fileName) = some l)
    (hTree : FileTree.Rewritten l text p.tree t') :
    (⟨t', p.root⟩ : Project).discoverConfig p.root = .ok (some (entryPath r f.fileName)) ↔
      p.Unshadowed r f := by
  have hOwn : t'.isFile (entryPath r f.fileName) = true :=
    (isFile_rewritten hTree _).mpr (.inr hEnd)
  have hSome : (configFileNames.find? fun name => t'.isFile (entryPath r name)).isSome :=
    List.find?_isSome.mpr ⟨_, f.fileName_mem, hOwn⟩
  obtain ⟨name, hFirst⟩ := Option.isSome_iff_exists.mp hSome
  rw [discoverConfig_of_first (h.rewritten hTree) hFirst]
  calc
    _ ↔ name = f.fileName :=
      ⟨fun hSame => entryPath_injective (Option.some.inj (Except.ok.inj hSame)),
        fun hSame => by rw [hSame]⟩
    _ ↔ (configFileNames.find? fun name => t'.isFile (entryPath r name)) = some f.fileName := by
      rw [hFirst, Option.some.injEq]
    _ ↔ _ := find?_eq_some_iff_takeWhile _ f.fileName_mem hOwn
    _ ↔ p.Unshadowed r f := by
      refine forall₂_congr fun name _ => ?_
      rw [hEnd, ← Bool.not_eq_true, ← Bool.not_eq_true, isFile_rewritten hTree, not_or]

theorem loadConfig_of_discover [TextFormats] {path : String} {f : Format} {c : Config}
    (hDiscover : p.discoverConfig p.root = .ok (some path)) (hFormat : Format.ofPath? path = some f)
    (hRead : p.tree.read (p.absolute path) = .ok text)
    (hParse : TextFormats.parse? f text = some c) :
    p.loadConfig none p.root = .ok c := by
  rw [Project.loadConfig, hDiscover]
  simp only [bind, Except.bind, Project.loadConfigFile, hFormat, hRead, hParse]

/-! ## The configuration in force -/

theorem NameMap.orElse_eq_self {α : Type} (m other : NameMap α)
    (hSet : ∀ name, other.contains name = true → m.contains name = true) : m.orElse other = m := by
  apply ext_get?
  intro name
  rw [get?_orElse]
  cases hOwn : m.get? name with
  | some a => rfl
  | none =>
    rw [Option.none_or]
    cases hOther : other.get? name with
    | none => rfl
    | some b =>
      obtain ⟨a, ha⟩ := (contains_iff _ _).mp (hSet name ((contains_iff _ _).mpr ⟨b, hOther⟩))
      cases hOwn.symm.trans ha

namespace Config

theorem resolve_eq (c : Config) (catalog : Catalog) :
    c.resolve catalog =
      if c.parent = some recommendedName then
        { c with rules := c.rules.orElse catalog.recommendedConfig.rules }
      else c := by
  rw [resolve, Catalog.recommendedConfig, merge_rulesOnly]
  rfl

theorem files_resolve (c : Config) (catalog : Catalog) : (c.resolve catalog).files = c.files := by
  rw [resolve_eq]
  split <;> rfl

end Config

namespace Outcome

variable {catalog : Catalog} {corpus : Corpus} {base : Config} (o : InitOptions)

/-- Whichever form a discovered configuration is written in, it selects the same files. -/
theorem fileSelection_configFor :
    (((plain catalog corpus base).configFor catalog o).resolve catalog).fileSelection =
      base.fileSelection := by
  rw [Config.fileSelection, Config.files_resolve, configFor]
  split <;> rfl

/-- And its rules are in force. -/
theorem rules_resolve_configFor :
    (((plain catalog corpus base).configFor catalog o).resolve catalog).rules =
      (plain catalog corpus base).config.rules := by
  have hSet (id : String) (hId : id ∈ catalog.recommendedIds) :=
    contains_recommended catalog corpus base hId
  rw [Config.resolve_eq, configFor]
  by_cases hExtend : o.extendRecommended = true
  · have hParent (c : Config) : (extendFromRecommended c catalog).parent = some recommendedName :=
      rfl
    rw [if_pos hExtend, if_pos (hParent _)]
    exact Config.rules_restored catalog _ hSet
  · rw [if_neg hExtend]
    split
    · apply NameMap.orElse_eq_self
      intro name hName
      rw [catalog.contains_recommendedConfig] at hName
      exact hSet name (of_decide_eq_true hName)
    · rfl

end Outcome

/-! ## Linting the files of the discovery -/

namespace Linter

theorem verifyFile_of_readUnit {path : String} {u : SourceUnit} (hWhole : p.absolute path = path)
    (hUnit : Corpus.readUnit p path = .ok u) (catalog : Catalog) (c : Config) :
    verifyFile catalog c p path = verify catalog u c := by
  obtain ⟨content, hContent, hParse⟩ := Corpus.readUnit_eq_ok_iff.mp hUnit
  rw [hWhole] at hContent
  rw [verifyFile, hContent]
  simp only [hParse]

/-- A file that has been discovered on and is still the same is linted as the unit that it was. -/
theorem exists_unit_of_mem_verifyFile [PathSearch] [PathSearch.KeepsAbsolute] {catalog : Catalog}
    {c : Config} {corpus : Corpus}
    {selection : FileSelection} {patterns analysed : List String} {path : String} {f : Finding}
    (hRoot : Path.isAbsolute p.root = true)
    (hLoad : (Corpus.load selection p patterns).outcome = .ok corpus)
    (hAnalysed : selection.resolve p patterns = .ok analysed) (hPath : path ∈ analysed)
    (hSame : ∀ content, p.tree.read path = .ok content → t'.read path = .ok content)
    (hFinding : f ∈ verifyFile catalog c ⟨t', p.root⟩ path) :
    ∃ u ∈ corpus.units, f ∈ verify catalog u c := by
  obtain ⟨u, hUnit, hRead⟩ := Corpus.mem_of_load hLoad hAnalysed hPath
  have hAbsolute := FileSelection.isAbsolute_of_mem_resolve hRoot hAnalysed path hPath
  have hWhole : p.absolute path = path := by
    rw [Project.absolute, Path.join, hAbsolute, Bool.true_or, if_pos rfl]
  obtain ⟨content, hContent, hParse⟩ := Corpus.readUnit_eq_ok_iff.mp hRead
  have hThere : (⟨t', p.root⟩ : Project).absolute path = path := hWhole
  have hAfter : Corpus.readUnit ⟨t', p.root⟩ path = .ok u := by
    refine Corpus.readUnit_eq_ok_iff.mpr ⟨content, ?_, hParse⟩
    rw [hThere]
    exact hSame content (hWhole ▸ hContent)
  rw [verifyFile_of_readUnit hThere hAfter] at hFinding
  exact ⟨u, hUnit, hFinding⟩

end Linter

theorem Project.lint_eq_ok_iff [PathSearch] [TextFormats] {catalog : Catalog}
    {named : Option String}
    {patterns : List String} {report : LintReport} :
    p.lint catalog named patterns = .ok report ↔
      ∃ c files, p.loadConfig named p.root = .ok c ∧
        (c.resolve catalog).fileSelection.resolve p patterns = .ok files ∧ files ≠ [] ∧
        Linter.verifyFiles catalog (c.resolve catalog) p files = report := by
  constructor
  · intro h
    obtain ⟨inForce, hConfig, h⟩ := bind_eq_ok_iff.mp h
    obtain ⟨c, hLoad, hResolve⟩ := bind_eq_ok_iff.mp hConfig
    obtain ⟨files, hFiles, h⟩ := bind_eq_ok_iff.mp h
    cases hResolve
    refine ⟨c, files, hLoad, hFiles, ?_⟩
    split at h
    · cases h
    · exact ⟨fun hNil => absurd hNil ‹_›, Except.ok.inj h⟩
  · rintro ⟨c, files, hLoad, hFiles, hNonempty, rfl⟩
    refine bind_eq_ok_iff.mpr ⟨c.resolve catalog, bind_eq_ok_iff.mpr ⟨c, hLoad, rfl⟩, ?_⟩
    refine bind_eq_ok_iff.mpr ⟨files, hFiles, ?_⟩
    cases files with
    | nil => exact absurd rfl hNonempty
    | cons path files => rfl

end RuleScout
