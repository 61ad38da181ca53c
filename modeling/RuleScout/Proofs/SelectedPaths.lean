import RuleScout.Files.Selection
import RuleScout.Proofs.LocationPaths
import RuleScout.Proofs.PathSets

/-!
# The paths of selected files

Whatever the patterns are, the files that they select are given by absolute paths, provided that
the directory of the project is.
-/

set_option autoImplicit false

namespace RuleScout

namespace Path

variable {base path : String}

theorem isAbsolute_append (hBase : isAbsolute base = true) (path : String) :
    isAbsolute (base ++ path) = true := by
  rw [isAbsolute, decide_eq_true_eq] at hBase ⊢
  rw [String.toList_append, List.head?_append, hBase, Option.some_or]

theorem isAbsolute_join (hBase : isAbsolute base = true) (path : String) :
    isAbsolute (join base path) = true := by
  rw [join]
  split
  · rename_i hAlone
    rcases Bool.or_eq_true_iff.mp hAlone with hPath | hEmpty
    · exact hPath
    · rw [of_decide_eq_true hEmpty] at hBase
      cases hBase
  · split
    · exact isAbsolute_append hBase path
    · rw [String.append_assoc]
      exact isAbsolute_append hBase _

end Path

open RuleScout.Path

namespace FileTree

mutual

theorem isAbsolute_filesBelow {path : String} (hPath : isAbsolute path = true) :
    ∀ t : FileTree, ∀ e ∈ t.filesBelow path, isAbsolute e.1 = true
  | .directory entries => by
    rw [filesBelow]
    exact isAbsolute_filesOfEntries hPath entries
  | .file _ => by simp [filesBelow]
  | .link _ => by simp [filesBelow]

theorem isAbsolute_filesOfEntries {path : String} (hPath : isAbsolute path = true) :
    ∀ entries, ∀ e ∈ filesOfEntries path entries, isAbsolute e.1 = true
  | [] => by simp [filesOfEntries]
  | (name, .file text) :: rest => by
    rw [filesOfEntries, List.forall_mem_cons]
    exact ⟨isAbsolute_join hPath name, isAbsolute_filesOfEntries hPath rest⟩
  | (name, .directory entries) :: rest => by
    rw [filesOfEntries, List.forall_mem_append]
    exact ⟨isAbsolute_filesOfEntries (isAbsolute_join hPath name) entries,
      isAbsolute_filesOfEntries hPath rest⟩
  | (_, .link _) :: rest => by
    rw [filesOfEntries]
    exact isAbsolute_filesOfEntries hPath rest

end

end FileTree

namespace Pattern

theorem forall_mem_ite {α : Type} {P : α → Prop} {c : Prop} [Decidable c] {xs ys : List α}
    (hThen : ∀ x ∈ xs, P x) (hElse : ∀ x ∈ ys, P x) : ∀ x ∈ (if c then xs else ys), P x := by
  split
  · exact hThen
  · exact hElse

/-- Expansion starts from an absolute path and only joins names to it. -/
theorem isAbsolute_expand_visit (t : FileTree) (fuel : Nat) :
    (∀ path ps, isAbsolute path = true →
      ∀ q ∈ expand t fuel path ps, isAbsolute q = true) ∧
    ∀ path name ps, isAbsolute path = true →
      ∀ q ∈ visit t fuel path name ps, isAbsolute q = true := by
  induction fuel with
  | zero => exact ⟨fun _ _ _ => by simp [expand], fun _ _ _ _ => by simp [visit]⟩
  | succ fuel ih =>
    obtain ⟨ihExpand, ihVisit⟩ := ih
    constructor
    · intro path ps hPath
      cases ps with
      | nil => simpa [expand] using hPath
      | cons p ps =>
        rw [expand]
        split
        · rename_i name _
          exact forall_mem_ite (ihExpand _ ps (isAbsolute_join hPath name)) (List.forall_mem_nil _)
        · refine forall_mem_ite ?_ (List.forall_mem_nil _)
          simp only [List.forall_mem_append, List.mem_flatMap, forall_exists_index, and_imp]
          exact ⟨fun q name _ => ihExpand _ ps (isAbsolute_join hPath name) q,
            fun q name _ => ihVisit _ name (p :: ps) (isAbsolute_join hPath name) q⟩
    · intro path name ps hPath
      have hMatched (p : Pattern) (ps : List Pattern) : ∀ q ∈
          (if !p.matches? name then []
            else if ps.isEmpty then [path]
            else expand t fuel path ps), isAbsolute q = true :=
        forall_mem_ite (List.forall_mem_nil _)
          (forall_mem_ite (by simpa using hPath) (ihExpand path ps hPath))
      cases ps with
      | nil => simp [visit]
      | cons p ps =>
        rw [visit]
        apply forall_mem_ite (hMatched p ps)
        generalize (p :: ps).dropWhile isRecursive = rest
        cases rest with
        | nil =>
          refine forall_mem_ite ?_ (List.forall_mem_nil _)
          exact List.forall_mem_append.mpr ⟨ihExpand path [p] hPath, by simpa using hPath⟩
        | cons next rest =>
          refine forall_mem_ite ?_ (hMatched next rest)
          exact List.forall_mem_append.mpr
            ⟨ihExpand path (p :: next :: rest) hPath, hMatched next rest⟩

theorem isAbsolute_files {t : FileTree} {text : String} {found : List String}
    (hFound : files t text = .ok found) : ∀ path ∈ found, isAbsolute path = true := by
  obtain ⟨_, -, hFound⟩ := bind_eq_ok_iff.mp hFound
  obtain ⟨parts, -, hFound⟩ := bind_eq_ok_iff.mp hFound
  split at hFound
  · cases hFound
    simp
  · cases hFound
    intro path hPath
    exact (isAbsolute_expand_visit t _).1 "/" parts rfl path ((List.mem_filter.mp hPath).1)

end Pattern

instance : PathSearch.KeepsAbsolute where
  isAbsolute_expand _ hFound hPath := Pattern.isAbsolute_files hFound _ hPath
  isAbsolute_walk hStart hPath := by
    obtain ⟨e, he, rfl⟩ := List.mem_map.mp hPath
    exact FileTree.isAbsolute_filesBelow hStart _ e he

namespace FileSelection

theorem isAbsolute_absolutePattern {root : String} (hRoot : isAbsolute root = true)
    (pattern : String) : isAbsolute (absolutePattern root pattern) = true := by
  rw [absolutePattern]
  split
  · assumption
  · rw [String.append_assoc]
    exact isAbsolute_append hRoot _

variable [PathSearch]

section Absolute

variable [PathSearch.KeepsAbsolute]

theorem isAbsolute_found {f : FileSelection} {p : Project} {pattern : String} {files : List String}
    (hRoot : isAbsolute p.root = true) (hFound : f.found p pattern = .ok files) :
    ∀ path ∈ files, isAbsolute path = true := by
  have hPath : isAbsolute (if pattern = "." then p.root else p.absolute pattern) = true := by
    split
    · exact hRoot
    · exact isAbsolute_join hRoot pattern
  rw [found] at hFound
  generalize (if pattern = "." then p.root else p.absolute pattern) = path at hFound hPath
  split at hFound
  · cases hFound
    simpa using hPath
  · split at hFound
    · cases hFound
      exact fun q hq => PathSearch.KeepsAbsolute.isAbsolute_walk hPath (List.mem_filter.mp hq).1
    · exact fun q => PathSearch.KeepsAbsolute.isAbsolute_expand
        (isAbsolute_absolutePattern hRoot pattern) (mapError_eq_ok_iff.mp hFound)

theorem isAbsolute_foundAll {f : FileSelection} {p : Project} {patterns files : List String}
    (hRoot : isAbsolute p.root = true) (hFound : f.foundAll p patterns = .ok files) :
    ∀ path ∈ files, isAbsolute path = true := by
  suffices hSet : ∀ set : List String, (∀ path ∈ set, isAbsolute path = true) →
      patterns.foldlM (fun set q => return Path.insertAll set (← f.found p q)) set = .ok files →
      ∀ path ∈ files, isAbsolute path = true from hSet [] (List.forall_mem_nil _) hFound
  clear hFound
  induction patterns with
  | nil =>
    intro set hSet hFound
    cases hFound
    exact hSet
  | cons pattern patterns ih =>
    intro set hSet hFound
    rw [List.foldlM_cons] at hFound
    obtain ⟨next, hNext, hFound⟩ := bind_eq_ok_iff.mp hFound
    obtain ⟨found, hOne, hInsert⟩ := bind_eq_ok_iff.mp hNext
    cases hInsert
    apply ih _ _ hFound
    intro path hPath
    exact (mem_insertAll hPath).elim (hSet path) (isAbsolute_found hRoot hOne path)

/-- All files that are selected have absolute paths. -/
theorem isAbsolute_of_mem_resolve {f : FileSelection} {p : Project} {given files : List String}
    (hRoot : isAbsolute p.root = true) (hFiles : f.resolve p given = .ok files) :
    ∀ path ∈ files, isAbsolute path = true := by
  obtain ⟨found, hFound, hFiles⟩ := bind_eq_ok_iff.mp hFiles
  obtain ⟨excluded, -, hFiles⟩ := bind_eq_ok_iff.mp hFiles
  cases hFiles
  exact fun path hPath => isAbsolute_foundAll hRoot hFound path ((List.mem_filter.mp hPath).1)

end Absolute

theorem ignored_of_absent {p : Project} {r : Location} (h : p.Rooted r)
    (hAbsent : p.tree.at? (r ++ [ignoreFileName]) = none) : ignored p = [] := by
  have hName : IsName ignoreFileName := by decide
  have hNode := h.node?_entry hName (by simp [hAbsent])
  rw [ignored, h.absolute_name hName]
  split
  · rename_i text hRead
    cases (FileTree.read_eq_ok_iff.mp hRead).symm.trans (hNode.trans hAbsent)
  · rfl

/-- A file that is asked for by its name is selected, unless it is left out. -/
theorem resolve_entry {f : FileSelection} {p : Project} {r : Location} {name : String}
    {excluded : List (String → Bool)} (h : p.Rooted r) (hName : IsName name)
    (hFile : p.tree.isFile (entryPath r name) = true) (hExcluded : f.compileExcluded = .ok excluded)
    (hKept : (excluded ++ ignored p).any (· (p.shown (entryPath r name))) = false) :
    f.resolve p [name] = .ok [entryPath r name] := by
  have hFound : f.found p name = .ok [entryPath r name] := by
    rw [found, if_neg hName.not_here, h.absolute_name hName, if_pos hFile]
  have hAll : f.foundAll p (f.patterns [name]) = .ok [entryPath r name] := by
    have hGiven : f.patterns [name] = [name] := rfl
    rw [hGiven, foundAll, List.foldlM_cons, hFound]
    rfl
  rw [resolve, hAll, hExcluded]
  simp only [bind, Except.bind, pure, Except.pure]
  rw [List.filter_cons_of_pos (by rw [hKept]; rfl), List.filter_nil]

end FileSelection

end RuleScout
