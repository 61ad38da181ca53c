import RuleScout.Proofs.NameMap
import RuleScout.Proofs.SelectedPaths

/-!
# Patterns as sets of files

Each pattern stands for files, however many patterns there are. What several patterns select is
put together from what each of them stands for, so neither their order nor repeating one of them
matters, as long as all spellings of a file are left out or none of them.
-/

set_option autoImplicit false

namespace RuleScout

open RuleScout.Path

namespace FileTree

variable {path name : String} {entries : List (String × FileTree)} {node : FileTree}

/-- The files that one entry of a directory contributes. -/
def entryFiles (path name : String) : FileTree → List (String × Option String)
  | .file text => [(join path name, text)]
  | .directory entries => filesOfEntries (join path name) entries
  | .link _ => []

theorem filesOfEntries_cons (path name : String) (node : FileTree)
    (rest : List (String × FileTree)) :
    filesOfEntries path ((name, node) :: rest) =
      entryFiles path name node ++ filesOfEntries path rest := by
  cases node <;> simp [filesOfEntries, entryFiles]

theorem entryFiles_subset (h : entries.lookup name = some node) :
    entryFiles path name node ⊆ filesOfEntries path entries := by
  induction entries with
  | nil => cases h
  | cons entry rest ih =>
    obtain ⟨key, other⟩ := entry
    rw [NameMap.lookup_cons_eq_ite] at h
    rw [filesOfEntries_cons]
    split at h
    · rename_i hKey
      cases h
      exact hKey ▸ List.subset_append_left _ _
    · exact List.Subset.trans (ih h) (List.subset_append_right _ _)

/-- The files of a directory are found at any depth. -/
theorem mem_filesBelow_of_at? {l : Location} {text : Option String}
    (h : (FileTree.directory entries).at? l = some (.file text)) :
    (l.foldl join path, text) ∈ (FileTree.directory entries).filesBelow path := by
  induction l generalizing entries path with
  | nil => cases h
  | cons name l ih =>
    rw [at?_cons, Option.bind_eq_some_iff] at h
    obtain ⟨child, hChild, h⟩ := h
    rw [filesBelow]
    apply entryFiles_subset hChild
    cases l with
    | nil =>
      cases h
      exact List.mem_singleton_self _
    | cons next l =>
      obtain ⟨below, _, rfl, -⟩ := exists_of_at?_cons h
      have hBelow : (l.foldl join (join (join path name) next), text) ∈
          (FileTree.directory below).filesBelow (join path name) := ih h
      rwa [filesBelow] at hBelow

end FileTree

instance : PathSearch.ListsBelow where
  mem_walk hDirectory hFile := by
    simp only [PathSearch.walk, hDirectory, Option.getD_some]
    exact List.mem_map_of_mem (FileTree.mem_filesBelow_of_at? hFile)

/-- What a pattern is, if it is no pattern of paths: a path below the directory of the project. -/
def Project.place (p : Project) (pattern : String) : String :=
  if pattern = "." then p.root else p.absolute pattern

namespace FileSelection

variable {f : FileSelection} {p : Project} {pattern path : String}
  {patterns more set files : List String}

theorem patterns_eq (h : patterns ≠ []) : f.patterns patterns = patterns := by
  rw [FileSelection.patterns, List.isEmpty_eq_false_iff.mpr h]
  rfl

section Search

variable [PathSearch]

/-- The files that a pattern stands for: the one it names, those with a chosen extension in the
directory it names, or those it matches. -/
inductive StandsFor (f : FileSelection) (p : Project) (pattern : String) : String → Prop where
  | file (hFile : p.tree.isFile (p.place pattern) = true) : StandsFor f p pattern (p.place pattern)
  | below {entries : List (String × FileTree)} {l : Location} {text : Option String}
      {extension allowed : String}
      (hDirectory : p.tree.node? (p.place pattern) = some (.directory entries))
      (hFile : (FileTree.directory entries).at? l = some (.file text))
      (hExtension : extension? (l.foldl join (p.place pattern)) = some extension)
      (hAllowed : allowed ∈ f.extensionList)
      (hCase : Text.lowercase allowed = Text.lowercase extension) :
      StandsFor f p pattern (l.foldl join (p.place pattern))
  | matched {found : List String} {path : String}
      (hFile : p.tree.isFile (p.place pattern) = false)
      (hDirectory : p.tree.isDirectory (p.place pattern) = false)
      (hFound : PathSearch.expand p.tree (absolutePattern p.root pattern) = .ok found)
      (hPath : path ∈ found) : StandsFor f p pattern path

/-- Whether a pattern of the configuration or of the ignore file matches a path as it is shown. -/
def Excludes (f : FileSelection) (p : Project) (path : String) : Prop :=
  (∃ text ∈ f.excludePatterns, ∃ q,
      PathSearch.matcher text = .ok q ∧ q (p.shown path) = true) ∨
    ∃ q ∈ ignored p, q (p.shown path) = true

/-- The paths that patterns stand for, in the order in which they are found. -/
def named (f : FileSelection) (p : Project) (patterns : List String) : List String :=
  patterns.flatMap fun pattern => (f.found p pattern).toOption.getD []

theorem found_eq :
    f.found p pattern =
      if p.tree.isFile (p.place pattern) then .ok [p.place pattern]
      else if p.tree.isDirectory (p.place pattern) then .ok (f.below p.tree (p.place pattern))
      else
        (PathSearch.expand p.tree (absolutePattern p.root pattern)).mapError
          (.badPattern .glob pattern) := rfl

theorem found_of_standsFor [PathSearch.ListsBelow] (h : f.StandsFor p pattern path) :
    ∃ files, f.found p pattern = .ok files ∧ path ∈ files := by
  rw [found_eq]
  cases h with
  | file hFile => exact ⟨_, if_pos hFile, List.mem_singleton_self _⟩
  | below hDirectory hFile hExtension hAllowed hCase =>
    have hNoFile : p.tree.isFile (p.place pattern) = false := by rw [FileTree.isFile, hDirectory]
    have hIs : p.tree.isDirectory (p.place pattern) = true := by
      rw [FileTree.isDirectory, hDirectory]
    rw [if_neg (Bool.eq_false_iff.mp hNoFile), if_pos hIs]
    refine ⟨_, rfl, List.mem_filter.mpr ⟨?_, ?_⟩⟩
    · exact PathSearch.ListsBelow.mem_walk hDirectory hFile
    · rw [picks, hExtension, Option.any_some, List.any_eq_true]
      exact ⟨_, hAllowed, decide_eq_true hCase⟩
  | matched hFile hDirectory hFound hPath =>
    rw [if_neg (Bool.eq_false_iff.mp hFile), if_neg (Bool.eq_false_iff.mp hDirectory), hFound]
    exact ⟨_, rfl, hPath⟩

theorem named_append (patterns more : List String) :
    f.named p (patterns ++ more) = f.named p patterns ++ f.named p more :=
  List.flatMap_append

theorem mem_named_iff : path ∈ f.named p patterns ↔
    ∃ pattern ∈ patterns, ∃ files, f.found p pattern = .ok files ∧ path ∈ files := by
  rw [named, List.mem_flatMap]
  refine exists_congr fun pattern => and_congr_right fun _ => ?_
  cases f.found p pattern with
  | error e => simp [Except.toOption]
  | ok files => simp [Except.toOption]

theorem foundAll_eq_ok_iff :
    f.foundAll p patterns = .ok set ↔
      (∀ pattern ∈ patterns, ∃ files, f.found p pattern = .ok files) ∧
        insertAll [] (f.named p patterns) = set := by
  suffices hStart : ∀ start : List String,
      patterns.foldlM (fun set q => return insertAll set (← f.found p q)) start = .ok set ↔
        (∀ pattern ∈ patterns, ∃ files, f.found p pattern = .ok files) ∧
          insertAll start (f.named p patterns) = set from hStart []
  induction patterns with
  | nil =>
    intro start
    simp [named, insertAll, pure, Except.pure]
  | cons pattern patterns ih =>
    intro start
    rw [List.foldlM_cons, List.forall_mem_cons, named, List.flatMap_cons, insertAll_append]
    cases f.found p pattern with
    | error e =>
      refine iff_of_false (fun h => by cases h) ?_
      rintro ⟨⟨⟨files, hFiles⟩, -⟩, -⟩
      cases hFiles
    | ok files =>
      rw [and_assoc, and_iff_right ⟨files, rfl⟩]
      exact ih (insertAll start files)

theorem any_matches_iff {excluded : List (String → Bool)} (h : f.compileExcluded = .ok excluded)
    (path : String) :
    ((excluded ++ ignored p).any fun q => q (p.shown path)) = true ↔
      f.Excludes p path := by
  rw [List.any_append, Bool.or_eq_true, List.any_eq_true, List.any_eq_true, Excludes]
  refine or_congr_left ?_
  constructor
  · rintro ⟨q, hq, hMatch⟩
    obtain ⟨text, hText, hCompiled⟩ := (mem_of_mapM_eq_ok h q).mp hq
    exact ⟨text, hText, q, mapError_eq_ok_iff.mp hCompiled, hMatch⟩
  · rintro ⟨text, hText, q, hCompiled, hMatch⟩
    have hq := (mem_of_mapM_eq_ok h q).mpr ⟨text, hText, mapError_eq_ok_iff.mpr hCompiled⟩
    exact ⟨q, hq, hMatch⟩

theorem resolve_eq_ok_iff (h : patterns ≠ []) :
    f.resolve p patterns = .ok files ↔
      (∀ pattern ∈ patterns, ∃ found, f.found p pattern = .ok found) ∧
        ∃ excluded, f.compileExcluded = .ok excluded ∧
          (insertAll [] (f.named p patterns)).filter
            (fun path => !(excluded ++ ignored p).any (· (p.shown path))) = files := by
  rw [resolve, patterns_eq h, bind_eq_ok_iff]
  constructor
  · rintro ⟨set, hSet, hFiles⟩
    obtain ⟨hFound, rfl⟩ := foundAll_eq_ok_iff.mp hSet
    obtain ⟨excluded, hExcluded, hFiles⟩ := bind_eq_ok_iff.mp hFiles
    exact ⟨hFound, excluded, hExcluded, Except.ok.inj hFiles⟩
  · rintro ⟨hFound, excluded, hExcluded, rfl⟩
    exact ⟨_, foundAll_eq_ok_iff.mpr ⟨hFound, rfl⟩, bind_eq_ok_iff.mpr ⟨excluded, hExcluded, rfl⟩⟩

/-! ## What is selected -/

/-- Files in the order of paths, each by its first spelling, unless that is left out. -/
structure Selection (f : FileSelection) (p : Project) (patterns files : List String) : Prop where
  ascending : Ascending files
  mem_iff : ∀ path, path ∈ files ↔
    spelling? (f.named p patterns) (parts path) = some path ∧ ¬f.Excludes p path

theorem selection_of_resolve (h : patterns ≠ []) (hFiles : f.resolve p patterns = .ok files) :
    f.Selection p patterns files := by
  obtain ⟨-, excluded, hExcluded, rfl⟩ := (resolve_eq_ok_iff h).mp hFiles
  have hSet : Ascending (insertAll [] (f.named p patterns)) := Ascending.insertAll .nil _
  refine ⟨hSet.filter _, fun path => ?_⟩
  rw [List.mem_filter, ← hSet.spelling?_eq_some_iff, spelling?_insertAll .nil, spelling?_nil,
    Option.none_or, Bool.not_eq_true', ← Bool.not_eq_true, any_matches_iff hExcluded]

/-- All spellings of a file that are found are left out, or none of them. -/
def SpelledAlike (f : FileSelection) (p : Project) (patterns : List String) : Prop :=
  ∀ a ∈ f.named p patterns, ∀ b ∈ f.named p patterns, parts a = parts b →
    (f.Excludes p a ↔ f.Excludes p b)

/-- The places of the selected files are those of all the paths that are found and not left out. -/
theorem Selection.mem_places_iff (h : f.Selection p patterns files)
    (hAlike : f.SpelledAlike p patterns) (place : List Part) :
    place ∈ files.map parts ↔
      ∃ path ∈ f.named p patterns, parts path = place ∧ ¬f.Excludes p path := by
  rw [List.mem_map]
  constructor
  · rintro ⟨path, hPath, rfl⟩
    obtain ⟨hFirst, hKept⟩ := (h.mem_iff path).mp hPath
    exact ⟨path, mem_of_spelling? hFirst, rfl, hKept⟩
  · rintro ⟨path, hPath, rfl, hKept⟩
    obtain ⟨first, hFirst⟩ := exists_spelling? (List.mem_map_of_mem hPath)
    have hPlace := parts_of_spelling? hFirst
    have hAgree := hAlike first (mem_of_spelling? hFirst) path hPath hPlace
    exact ⟨first, (h.mem_iff first).mpr ⟨hPlace.symm ▸ hFirst, mt hAgree.mp hKept⟩, hPlace⟩

theorem SpelledAlike.of_subset (h : f.SpelledAlike p patterns) (hSubset : more ⊆ patterns) :
    f.SpelledAlike p more := by
  have hNamed : f.named p more ⊆ f.named p patterns := by
    intro path hPath
    obtain ⟨pattern, hPattern, hFound⟩ := mem_named_iff.mp hPath
    exact mem_named_iff.mpr ⟨pattern, hSubset hPattern, hFound⟩
  exact fun a ha b hb => h a (hNamed ha) b (hNamed hb)

/-- Lists of the same patterns select the same files, in the same order. -/
theorem resolve_of_same_members (h : patterns ≠ []) (hFiles : f.resolve p patterns = .ok files)
    (hAlike : f.SpelledAlike p patterns) (hSame : ∀ pattern, pattern ∈ more ↔ pattern ∈ patterns) :
    ∃ others, f.resolve p more = .ok others ∧ others.map parts = files.map parts := by
  have hMore : more ≠ [] := by
    obtain ⟨pattern, hPattern⟩ := List.exists_mem_of_ne_nil _ h
    exact List.ne_nil_of_mem ((hSame pattern).mpr hPattern)
  obtain ⟨hFound, excluded, hExcluded, -⟩ := (resolve_eq_ok_iff h).mp hFiles
  have hOthers := (resolve_eq_ok_iff hMore).mpr
    ⟨fun pattern hPattern => hFound pattern ((hSame pattern).mp hPattern), excluded, hExcluded, rfl⟩
  have hAlike' := hAlike.of_subset fun pattern => (hSame pattern).mp
  have hFirst := selection_of_resolve h hFiles
  have hSecond := selection_of_resolve hMore hOthers
  refine ⟨_, hOthers, hSecond.ascending.map_parts_eq hFirst.ascending fun place => ?_⟩
  have hNamed (path : String) : path ∈ f.named p more ↔ path ∈ f.named p patterns := by
    rw [mem_named_iff, mem_named_iff]
    exact exists_congr fun pattern => and_congr_left fun _ => hSame pattern
  rw [hSecond.mem_places_iff hAlike', hFirst.mem_places_iff hAlike]
  exact exists_congr fun path => and_congr_left fun _ => hNamed path

/-- Patterns behind others add the files that they select alone. -/
theorem resolve_append {first second : List String} (hPatterns : patterns ≠ []) (hMore : more ≠ [])
    (hFirst : f.resolve p patterns = .ok first) (hSecond : f.resolve p more = .ok second) :
    ∃ both, f.resolve p (patterns ++ more) = .ok both ∧ Ascending both ∧
      (f.SpelledAlike p (patterns ++ more) →
        ∀ place, place ∈ both.map parts ↔ place ∈ first.map parts ∨ place ∈ second.map parts) := by
  have hAppend : patterns ++ more ≠ [] := List.append_ne_nil_of_left_ne_nil hPatterns more
  obtain ⟨hFound, excluded, hExcluded, -⟩ := (resolve_eq_ok_iff hPatterns).mp hFirst
  obtain ⟨hFound', -⟩ := (resolve_eq_ok_iff hMore).mp hSecond
  have hBoth := (resolve_eq_ok_iff hAppend).mpr
    ⟨List.forall_mem_append.mpr ⟨hFound, hFound'⟩, excluded, hExcluded, rfl⟩
  have hSelected := selection_of_resolve hAppend hBoth
  refine ⟨_, hBoth, hSelected.ascending, fun hAlike place => ?_⟩
  have hLeft := hAlike.of_subset (List.subset_append_left patterns more)
  have hRight := hAlike.of_subset (List.subset_append_right patterns more)
  rw [hSelected.mem_places_iff hAlike, (selection_of_resolve hPatterns hFirst).mem_places_iff hLeft,
    (selection_of_resolve hMore hSecond).mem_places_iff hRight, named_append, ← exists_or]
  exact exists_congr fun path => by rw [List.mem_append, or_and_right]

/-- What several patterns select is put together from what each of them selects, as long as no
file is left out under one spelling and kept under another. -/
theorem resolve_union [PathSearch.ListsBelow] (hPatterns : patterns ≠ [])
    (hFiles : f.resolve p patterns = .ok files) :
    f.Selection p patterns files ∧
      (f.SpelledAlike p patterns →
        (∀ pattern ∈ patterns, ∀ path, f.StandsFor p pattern path → ¬f.Excludes p path →
          parts path ∈ files.map parts) ∧
        ∀ others, (∀ pattern, pattern ∈ others ↔ pattern ∈ patterns) →
          ∃ again, f.resolve p others = .ok again ∧ again.map parts = files.map parts) ∧
      ∀ more second, more ≠ [] → f.resolve p more = .ok second →
        ∃ both, f.resolve p (patterns ++ more) = .ok both ∧ Ascending both ∧
          (f.SpelledAlike p (patterns ++ more) → ∀ place,
            place ∈ both.map parts ↔ place ∈ files.map parts ∨ place ∈ second.map parts) := by
  have hSelected := selection_of_resolve hPatterns hFiles
  refine ⟨hSelected, fun hAlike => ⟨?_, ?_⟩, ?_⟩
  · intro pattern hPattern path hStands hKept
    obtain ⟨found, hFound, hPath⟩ := found_of_standsFor hStands
    have hNamed := mem_named_iff.mpr ⟨pattern, hPattern, found, hFound, hPath⟩
    exact (hSelected.mem_places_iff hAlike _).mpr ⟨path, hNamed, rfl, hKept⟩
  · exact fun others => resolve_of_same_members hPatterns hFiles hAlike
  · exact fun more second hMore => resolve_append hPatterns hMore hFiles

end Search

namespace SpellingSample

/-- A directory with two files. -/
def project : Project where
  tree := .directory
    [("src", .directory [("a.js", .file (some "a();\n")), ("b.js", .file (some "b();\n"))])]
  root := "/"

/-- Leaves one of them out. -/
def selection : FileSelection := { excluded := some ["src/a.js"] }

def leftOut : Pattern := ⟨"src/a.js".toList.map .char⟩

theorem compileExcluded_eq : selection.compileExcluded = .ok [leftOut.matches?] := rfl

theorem ignored_eq : ignored project = [] := by
  have hRooted : project.Rooted [] :=
    { root := show "/" = Location.toPath [] by decide
      names := nofun
      directory := ⟨_, rfl⟩ }
  exact ignored_of_absent hRooted rfl

theorem resolve_eq (hPatterns : patterns ≠ [])
    (hFound : ∀ pattern ∈ patterns, ∃ found, selection.found project pattern = .ok found)
    (hSet : insertAll [] (selection.named project patterns) = set) :
    selection.resolve project patterns =
      .ok (set.filter fun path => !leftOut.matches? (project.shown path)) := by
  refine (resolve_eq_ok_iff hPatterns).mpr ⟨hFound, _, compileExcluded_eq, ?_⟩
  rw [hSet, ignored_eq]
  simp only [List.append_nil, List.any_cons, List.any_nil, Bool.or_false]

theorem parts_a : parts "/src/a.js" = [.root, .name "src", .name "a.js"] := by
  rw [parts, pieces_eq]
  decide

theorem parts_dotted : parts "/src/./a.js" = [.root, .name "src", .name "a.js"] := by
  rw [parts, pieces_eq]
  decide

theorem parts_b : parts "/src/b.js" = [.root, .name "src", .name "b.js"] := by
  rw [parts, pieces_eq]
  decide

theorem matches_a : leftOut.matches? (project.shown "/src/a.js") = true := by
  simp only [Project.shown, relativeTo, parts, pieces_eq]
  decide

theorem matches_dotted : leftOut.matches? (project.shown "/src/./a.js") = false := by
  simp only [Project.shown, relativeTo, parts, pieces_eq]
  decide

theorem matches_b : leftOut.matches? (project.shown "/src/b.js") = false := by
  simp only [Project.shown, relativeTo, parts, pieces_eq]
  decide

theorem places :
    project.place "src/a.js" = "/src/a.js" ∧ project.place "src/./a.js" = "/src/./a.js" ∧
      project.place "src" = "/src" ∧ join "/src" "a.js" = "/src/a.js" ∧
      join "/src" "b.js" = "/src/b.js" := by decide +kernel

theorem locations :
    project.tree.resolve "/src/a.js" = .ok ["src", "a.js"] ∧
      project.tree.resolve "/src/./a.js" = .ok ["src", "a.js"] ∧
      project.tree.resolve "/src" = .ok ["src"] := by
  simp only [FileTree.resolve, FileTree.steps_eq]
  decide +kernel

theorem found_file (hPlace : project.place pattern = path)
    (hResolve : project.tree.resolve path = .ok ["src", "a.js"]) :
    selection.found project pattern = .ok [path] := by
  have hFile : project.tree.isFile path = true := by
    rw [FileTree.isFile, FileTree.node?, hResolve]
    rfl
  rw [found_eq, hPlace, if_pos hFile]

theorem found_a : selection.found project "src/a.js" = .ok ["/src/a.js"] :=
  found_file places.1 locations.1

theorem found_dotted : selection.found project "src/./a.js" = .ok ["/src/./a.js"] :=
  found_file places.2.1 locations.2.1

theorem picks_a : selection.picks "/src/a.js" = true := by
  have hName : fileName? "/src/a.js" = some "a.js" := by rw [fileName?, parts_a]; rfl
  have hExtension : extension? "/src/a.js" = some "js" :=
    extension?_of_pieces hName (by decide) (by decide : "a" ≠ "")
  rw [picks, hExtension]
  decide

theorem picks_b : selection.picks "/src/b.js" = true := by
  have hName : fileName? "/src/b.js" = some "b.js" := by rw [fileName?, parts_b]; rfl
  have hExtension : extension? "/src/b.js" = some "js" :=
    extension?_of_pieces hName (by decide) (by decide : "b" ≠ "")
  rw [picks, hExtension]
  decide

theorem found_directory : selection.found project "src" = .ok ["/src/a.js", "/src/b.js"] := by
  obtain ⟨-, -, hPlace, hA, hB⟩ := places
  have hNode : project.tree.node? "/src" = some (.directory
      [("a.js", .file (some "a();\n")), ("b.js", .file (some "b();\n"))]) := by
    rw [FileTree.node?, locations.2.2]
    rfl
  have hFile : project.tree.isFile "/src" = false := by rw [FileTree.isFile, hNode]
  have hDirectory : project.tree.isDirectory "/src" = true := by rw [FileTree.isDirectory, hNode]
  rw [found_eq, hPlace, if_neg (Bool.eq_false_iff.mp hFile), if_pos hDirectory, below]
  simp [PathSearch.walk, hNode, FileTree.filesBelow, FileTree.filesOfEntries, hA, hB, picks_a,
    picks_b]

theorem resolve_a : selection.resolve project ["src/a.js"] = .ok [] := by
  have hSet : insertAll [] (selection.named project ["src/a.js"]) = ["/src/a.js"] := by
    rw [named, List.flatMap_singleton, found_a]
    rfl
  rw [resolve_eq (List.cons_ne_nil _ _) (by simpa using ⟨_, found_a⟩) hSet]
  simp [matches_a]

theorem resolve_dotted : selection.resolve project ["src/./a.js"] = .ok ["/src/./a.js"] := by
  have hSet : insertAll [] (selection.named project ["src/./a.js"]) = ["/src/./a.js"] := by
    rw [named, List.flatMap_singleton, found_dotted]
    rfl
  rw [resolve_eq (List.cons_ne_nil _ _) (by simpa using ⟨_, found_dotted⟩) hSet]
  simp [matches_dotted]

theorem resolve_directory : selection.resolve project ["src"] = .ok ["/src/b.js"] := by
  have hLe : le "/src/b.js" "/src/a.js" = false := by
    rw [le, parts_a, parts_b]
    decide
  have hSet : insertAll [] (selection.named project ["src"]) = ["/src/a.js", "/src/b.js"] := by
    rw [named, List.flatMap_singleton, found_directory]
    simp [Except.toOption, insertAll, insertPath, same, parts_a, parts_b, hLe]
  rw [resolve_eq (List.cons_ne_nil _ _) (by simpa using ⟨_, found_directory⟩) hSet]
  simp [matches_a, matches_b]

end SpellingSample

open SpellingSample in
theorem resolve_union_directory :
    let patterns := ["src"]
    let more := ["src/a.js"]
    patterns ≠ [] ∧ selection.resolve project patterns = .ok ["/src/b.js"] ∧
      more ≠ [] ∧ selection.resolve project more = .ok [] ∧
      selection.SpelledAlike project (patterns ++ more) ∧
      selection.Selection project patterns ["/src/b.js"] ∧
      ∃ both, selection.resolve project (patterns ++ more) = .ok both ∧ Ascending both ∧
        ∀ place, place ∈ both.map parts ↔ place = parts "/src/b.js" := by
  intro patterns more
  have hPatterns : patterns ≠ [] := List.cons_ne_nil _ _
  have hMore : more ≠ [] := List.cons_ne_nil _ _
  have hAlike : selection.SpelledAlike project (patterns ++ more) := by
    have hNamed : selection.named project (patterns ++ more) =
        ["/src/a.js", "/src/b.js", "/src/a.js"] := by
      rw [named_append, named, named, List.flatMap_singleton, List.flatMap_singleton,
        found_directory, found_a]
      rfl
    have hOther : parts "/src/a.js" ≠ parts "/src/b.js" := by
      rw [parts_a, parts_b]
      decide
    rw [SpelledAlike, hNamed]
    simp [hOther, hOther.symm]
  obtain ⟨hSelected, -, hAppend⟩ := resolve_union hPatterns resolve_directory
  obtain ⟨both, hBoth, hAscending, hUnion⟩ := hAppend more [] hMore resolve_a
  refine ⟨hPatterns, resolve_directory, hMore, resolve_a, hAlike, hSelected, both, hBoth,
    hAscending, fun place => ?_⟩
  rw [hUnion hAlike place]
  simp

open SpellingSample in
/-- Two spellings of one file, of which only one is matched by what leaves files out: the first
one decides for both. -/
theorem resolve_union_exceptions :
    parts "/src/./a.js" = parts "/src/a.js" ∧
      selection.resolve project ["src/a.js"] = .ok [] ∧
      selection.resolve project ["src/./a.js"] = .ok ["/src/./a.js"] ∧
      selection.resolve project ["src/a.js", "src/./a.js"] = .ok [] ∧
      selection.resolve project ["src/./a.js", "src/a.js"] = .ok ["/src/./a.js"] := by
  have hPlace : parts "/src/./a.js" = parts "/src/a.js" := parts_dotted.trans parts_a.symm
  have hFirst : insertAll [] (selection.named project ["src/a.js", "src/./a.js"]) =
      ["/src/a.js"] := by
    simp [named, found_a, found_dotted, Except.toOption, insertAll, insertPath, same, hPlace]
  have hSecond : insertAll [] (selection.named project ["src/./a.js", "src/a.js"]) =
      ["/src/./a.js"] := by
    simp [named, found_a, found_dotted, Except.toOption, insertAll, insertPath, same, hPlace]
  refine ⟨hPlace, resolve_a, resolve_dotted, ?_, ?_⟩
  · rw [resolve_eq (List.cons_ne_nil _ _) (by simp [found_a, found_dotted]) hFirst]
    simp [matches_a]
  · rw [resolve_eq (List.cons_ne_nil _ _) (by simp [found_a, found_dotted]) hSecond]
    simp [matches_dotted]

end FileSelection

end RuleScout
