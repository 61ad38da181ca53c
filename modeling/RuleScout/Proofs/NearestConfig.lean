import RuleScout.Proofs.ConfigInForce
import RuleScout.Proofs.FirstFound

/-!
# The nearest configuration

The search for a configuration goes from a directory upwards, and in each directory it tries the
names of configuration files in their order. So it finds the file in the nearest directory that
holds one, and there the one with the earliest name. An entry that is a directory does not count; a
link counts as what it leads to.
-/

set_option autoImplicit false

namespace RuleScout

variable {p : Project} {t : FileTree} {l dir here : Location} {name path start : String}

/-! ## Names on the way to a location -/

/-- A step of a way: a name, or a dot or two. -/
def IsStep (step : String) : Prop := step ≠ "" ∧ '/' ∉ step.toList

theorem IsStep.isName (h : IsStep name) (hHere : name ≠ ".") (hUp : name ≠ "..") : IsName name :=
  ⟨h.1, h.2, hHere, hUp⟩

theorem not_mem_splitOnP {α : Type} (q : α → Bool) (xs : List α) :
    ∀ piece ∈ xs.splitOnP q, ∀ x ∈ piece, q x = false := by
  induction xs with
  | nil => simp
  | cons x xs ih =>
    rw [List.splitOnP_cons_eq_if_modifyHead]
    split
    · simpa using ih
    · rename_i hx
      obtain ⟨first, others, hPieces⟩ := List.exists_cons_of_ne_nil (List.splitOnP_ne_nil q xs)
      rw [hPieces, List.forall_mem_cons] at ih
      rw [hPieces, List.modifyHead_cons, List.forall_mem_cons, List.forall_mem_cons]
      exact ⟨⟨by simpa using hx, ih.1⟩, ih.2⟩

theorem isStep_of_mem_steps {step : String} (h : step ∈ FileTree.steps path) : IsStep step := by
  rw [FileTree.steps_eq, List.mem_append] at h
  rcases h with hPiece | hDot
  · obtain ⟨hPiece, hNonempty⟩ := List.mem_filter.mp hPiece
    obtain ⟨cs, hcs, rfl⟩ := List.mem_map.mp hPiece
    refine ⟨of_decide_eq_true hNonempty, fun hSlash => ?_⟩
    rw [String.toList_ofList] at hSlash
    have hOther := not_mem_splitOnP (· == '/') path.toList cs hcs '/' hSlash
    cases hOther
  · split at hDot
    · rw [List.mem_singleton.mp hDot]
      exact ⟨by decide, by decide⟩
    · cases hDot

namespace FileTree

/-- The location at which a way stops is made of names, and what is left of the way of steps. -/
def Stop.Named : Stop → Prop
  | .arrived l | .absent l => ∀ name ∈ l, IsName name
  | .link parent _ rest => (∀ name ∈ parent, IsName name) ∧ ∀ step ∈ rest, IsStep step
  | .fault _ => True

theorem named_advance {way : List String} (hHere : ∀ name ∈ here, IsName name)
    (hWay : ∀ step ∈ way, IsStep step) : (t.advance here way).Named := by
  induction way generalizing here with
  | nil => exact hHere
  | cons step rest ih =>
    rw [List.forall_mem_cons] at hWay
    have hBelow (hDot : step ≠ ".") (hUp : step ≠ "..") : ∀ name ∈ here ++ [step], IsName name := by
      simpa [or_imp, forall_and] using ⟨hHere, hWay.1.isName hDot hUp⟩
    rw [advance]
    split
    · split
      · exact ih hHere hWay.2
      · rename_i hDot
        split
        · exact ih (fun n hn => hHere n (List.dropLast_subset here hn)) hWay.2
        · rename_i hUp
          split
          · split
            · exact hBelow hDot hUp
            · trivial
          · exact ⟨hHere, hWay.2⟩
          · exact ih (hBelow hDot hUp) hWay.2
    · trivial
    · trivial

theorem isName_of_follow {links : Nat} {way : List String} (hHere : ∀ name ∈ here, IsName name)
    (hWay : ∀ step ∈ way, IsStep step) (hEnd : t.follow links here way = .ok l) :
    ∀ name ∈ l, IsName name := by
  fun_induction follow t links here way with
  | case1 _ here way m hStop =>
    have hNamed := named_advance (t := t) hHere hWay
    rw [hStop] at hNamed
    cases hEnd
    exact hNamed
  | case2 _ here way m hStop =>
    have hNamed := named_advance (t := t) hHere hWay
    rw [hStop] at hNamed
    cases hEnd
    exact hNamed
  | case3 => cases hEnd
  | case4 => cases hEnd
  | case5 here way parent target rest hStop links ih =>
    have hNamed := named_advance (t := t) hHere hWay
    rw [hStop] at hNamed
    refine ih ?_ ?_ hEnd
    · rw [linkStart]
      split
      · exact List.forall_mem_nil _
      · exact hNamed.1
    · intro step hStep
      exact (List.mem_append.mp hStep).elim isStep_of_mem_steps (hNamed.2 step)

theorem isName_of_resolve (h : t.resolve path = .ok l) : ∀ name ∈ l, IsName name :=
  isName_of_follow (List.forall_mem_nil _) (fun _ => isStep_of_mem_steps)
    (toOption_eq_some_iff.mp (resolve_eq_ok_iff.mp h).1)

/-! ## The files of a directory -/

/-- The entry of a directory is a regular file, or a link that leads to one. -/
inductive Holds (t : FileTree) (dir : Location) (name : String) : Prop
  | file (text : Option String) (hAt : t.at? (dir ++ [name]) = some (.file text))
  | link (target : String) (l : Location) (text : Option String)
    (hAt : t.at? (dir ++ [name]) = some (.link target))
    (hEnd : t.follow (linkLimit - 1) (linkStart dir target) (steps target) = .ok l)
    (hFile : t.at? l = some (.file text))

theorem not_holds_of_directory (h : ∀ node, t.at? (dir ++ [name]) = some node →
    ∃ entries, node = .directory entries) : ¬t.Holds dir name := by
  rintro (⟨text, hAt⟩ | ⟨target, l, text, hAt, -, -⟩)
  · obtain ⟨entries, hNode⟩ := h _ hAt
    cases hNode
  · obtain ⟨entries, hNode⟩ := h _ hAt
    cases hNode

/-- The path of an entry leads to it, or to where it leads if it is a link. -/
theorem endOf_entry {entries : List (String × FileTree)} (hNames : ∀ name ∈ dir, IsName name)
    (hName : IsName name) (hAt : t.at? dir = some (.directory entries)) :
    t.endOf (entryPath dir name) =
      match t.at? (dir ++ [name]) with
      | some (.link target) =>
        (t.follow (linkLimit - 1) (linkStart dir target) (steps target)).toOption
      | _ => some (dir ++ [name]) := by
  have hStart : t.at? ([] ++ dir) = some (.directory entries) := hAt
  have hWay : t.advance [] (dir ++ [name]) = t.advance dir [name] := advance_down hNames hStart _
  rw [endOf, Location.steps_toPath_concat hNames hName, follow, hWay, advance_entry hName hAt]
  cases hEntry : t.at? (dir ++ [name]) with
  | none => rfl
  | some node =>
    cases node with
    | file text => rfl
    | directory entries => rfl
    | link target => exact congrArg (fun way => (t.follow _ _ way).toOption) (List.append_nil _)

theorem isFile_entry_iff {entries : List (String × FileTree)} (hNames : ∀ name ∈ dir, IsName name)
    (hName : IsName name) (hAt : t.at? dir = some (.directory entries)) :
    t.isFile (entryPath dir name) = true ↔ t.Holds dir name := by
  rw [isFile_iff, node?_eq, endOf_entry hNames hName hAt]
  cases hEntry : t.at? (dir ++ [name]) with
  | none =>
    constructor
    · rintro ⟨text, hFile⟩
      rw [Option.bind_some, hEntry] at hFile
      cases hFile
    · rintro (⟨text, hOwn⟩ | ⟨target, l, text, hOwn, -, -⟩) <;> cases hEntry.symm.trans hOwn
  | some node =>
    cases node with
    | file text =>
      refine iff_of_true ⟨text, ?_⟩ (.file text hEntry)
      rw [Option.bind_some, hEntry]
    | directory entries =>
      constructor
      · rintro ⟨text, hFile⟩
        rw [Option.bind_some, hEntry] at hFile
        cases hFile
      · rintro (⟨text, hOwn⟩ | ⟨target, l, text, hOwn, -, -⟩) <;> cases hEntry.symm.trans hOwn
    | link target =>
      constructor
      · rintro ⟨text, hFile⟩
        obtain ⟨l, hEnd, hFile⟩ := Option.bind_eq_some_iff.mp hFile
        exact .link target l text hEntry (toOption_eq_some_iff.mp hEnd) hFile
      · rintro (⟨text, hOwn⟩ | ⟨target', l, text, hOwn, hEnd, hFile⟩)
        · cases hEntry.symm.trans hOwn
        · cases hEntry.symm.trans hOwn
          exact ⟨text, Option.bind_eq_some_iff.mpr ⟨l, toOption_eq_some_iff.mpr hEnd, hFile⟩⟩

end FileTree

/-! ## From a directory upwards -/

namespace Location

theorem ascending_concat (l : Location) (name : String) :
    ascending (l ++ [name]) = (l ++ [name]) :: ascending l := by
  induction l with
  | nil => rfl
  | cons first l ih =>
    rw [List.cons_append, ascending, ih, ascending, List.map_cons, List.cons_append]

theorem mem_ascending_iff : dir ∈ l.ascending ↔ dir <+: l := by
  induction l using List.reverseRecOn with
  | nil => rw [ascending, List.mem_singleton, List.prefix_nil]
  | append_singleton l name ih =>
    rw [ascending_concat, List.mem_cons, ih, List.prefix_concat_iff]

/-- What comes later is further up. -/
theorem pairwise_ascending (l : Location) :
    l.ascending.Pairwise fun dir above => above <+: dir := by
  induction l using List.reverseRecOn with
  | nil => exact List.pairwise_singleton _ _
  | append_singleton l name ih =>
    rw [ascending_concat, List.pairwise_cons]
    refine ⟨fun above hAbove => ?_, ih⟩
    exact (mem_ascending_iff.mp hAbove).trans (List.prefix_append l [name])

end Location

/-! ## What is found -/

/-- The configuration file `name` of `dir` is the nearest one above `here`: whatever directory
holds one is `dir` or further up, and in `dir` no other one has an earlier name. -/
structure NearestConfig (t : FileTree) (here dir : Location) (name : String) : Prop where
  above : dir <+: here
  listed : name ∈ configFileNames
  holds : t.Holds dir name
  nearest : ∀ d, d <+: here → ∀ other ∈ configFileNames, t.Holds d other → d <+: dir
  first : ∀ other ∈ configFileNames, t.Holds dir other →
    configFileNames.idxOf name ≤ configFileNames.idxOf other

theorem NearestConfig.unique {dir' : Location} {name' : String} (h : NearestConfig t here dir name)
    (h' : NearestConfig t here dir' name') : dir = dir' ∧ name = name' := by
  have hDir : dir = dir' := by
    have hBelow := h'.nearest dir h.above name h.listed h.holds
    have hAbove := h.nearest dir' h'.above name' h'.listed h'.holds
    exact hBelow.eq_of_length (Nat.le_antisymm hBelow.length_le hAbove.length_le)
  subst hDir
  refine ⟨rfl, ?_⟩
  apply (List.idxOf_inj h.listed).mp
  exact Nat.le_antisymm (h.first name' h'.listed h'.holds) (h'.first name h.listed h.holds)

namespace FileTree

theorem configIn?_eq (t : FileTree) (dir : Location) :
    t.configIn? dir =
      (configFileNames.find? fun name => t.isFile (entryPath dir name)).map (dir ++ [·]) := by
  rw [configIn?, List.find?_map]
  rfl

section Search

variable {entries : List (String × FileTree)} (hNames : ∀ name ∈ here, IsName name)
  (hAt : t.at? here = some (.directory entries))
include hNames hAt

theorem isFile_above_iff (hAbove : dir <+: here) (hListed : name ∈ configFileNames) :
    t.isFile (entryPath dir name) = true ↔ t.Holds dir name := by
  obtain ⟨rest, rfl⟩ := hAbove
  obtain ⟨above, hDir⟩ := directory_above hAt
  exact isFile_entry_iff (fun n hn => hNames n (List.mem_append_left _ hn)) (isName_of_mem hListed)
    hDir

theorem isSome_configIn?_iff (hAbove : dir <+: here) :
    (t.configIn? dir).isSome ↔ ∃ name ∈ configFileNames, t.Holds dir name := by
  rw [configIn?_eq, Option.isSome_map, List.find?_isSome]
  exact exists_congr fun name => and_congr_right fun hListed =>
    isFile_above_iff hNames hAt hAbove hListed

theorem exists_nearest {file : Location} (hFound : t.nearestConfig? here = some file) :
    ∃ dir name, file = dir ++ [name] ∧ NearestConfig t here dir name := by
  obtain ⟨dir, hDir, hFile, hNearest⟩ := exists_of_findSome?_pairwise
    (R := fun dir above => above <+: dir) List.prefix_refl here.pairwise_ascending hFound
  have hAbove := Location.mem_ascending_iff.mp hDir
  rw [configIn?_eq] at hFile
  obtain ⟨name, hName, rfl⟩ := Option.map_eq_some_iff.mp hFile
  have hListed := List.mem_of_find?_eq_some hName
  refine ⟨dir, name, rfl, hAbove, hListed, ?_, ?_, ?_⟩
  · apply (isFile_above_iff hNames hAt hAbove hListed).mp
    exact (List.find?_eq_some_iff_append.mp hName).1
  · intro d hd other hOther hHolds
    apply hNearest d (Location.mem_ascending_iff.mpr hd)
    exact (isSome_configIn?_iff hNames hAt hd).mpr ⟨other, hOther, hHolds⟩
  · intro other hOther hHolds
    apply find?_idxOf_le hName
    exact (isFile_above_iff hNames hAt hAbove hOther).mpr hHolds

theorem isSome_nearestConfig?_iff :
    (t.nearestConfig? here).isSome ↔
      ∃ dir name, dir <+: here ∧ name ∈ configFileNames ∧ t.Holds dir name := by
  rw [nearestConfig?, List.findSome?_isSome_iff]
  constructor
  · rintro ⟨dir, hDir, hSome⟩
    have hAbove := Location.mem_ascending_iff.mp hDir
    obtain ⟨name, hListed, hHolds⟩ := (isSome_configIn?_iff hNames hAt hAbove).mp hSome
    exact ⟨dir, name, hAbove, hListed, hHolds⟩
  · rintro ⟨dir, name, hAbove, hListed, hHolds⟩
    refine ⟨dir, Location.mem_ascending_iff.mpr hAbove, ?_⟩
    exact (isSome_configIn?_iff hNames hAt hAbove).mpr ⟨name, hListed, hHolds⟩

end Search

end FileTree

/-- The search from a directory that exists ends. It finds a file if the directory or one above it
holds a configuration file, and then the nearest one, which has the earliest name of those in its
directory. -/
theorem nearest_config_found (p : Project) (start : String)
    (hStart : p.tree.isDirectory (p.absolute start) = true) :
    ∃ here found, p.tree.resolve (p.absolute start) = .ok here ∧
      p.discoverConfig start = .ok found ∧
      (found.isSome ↔
        ∃ dir name, dir <+: here ∧ name ∈ configFileNames ∧ p.tree.Holds dir name) ∧
      ∀ path, found = some path ↔
        ∃ dir name, path = entryPath dir name ∧ NearestConfig p.tree here dir name := by
  obtain ⟨here, entries, hResolve, hAt⟩ : ∃ here entries,
      p.tree.resolve (p.absolute start) = .ok here ∧
        p.tree.at? here = some (.directory entries) := by
    rw [FileTree.isDirectory, FileTree.node?] at hStart
    cases hResolve : p.tree.resolve (p.absolute start) with
    | error fault => simp [hResolve] at hStart
    | ok here =>
      rw [hResolve] at hStart
      split at hStart
      · exact ⟨here, _, rfl, ‹_›⟩
      · cases hStart
  have hNames := FileTree.isName_of_resolve hResolve
  refine ⟨here, (p.tree.nearestConfig? here).map Location.toPath, hResolve, ?_, ?_, ?_⟩
  · rw [Project.discoverConfig, hResolve]
  · rw [Option.isSome_map]
    exact FileTree.isSome_nearestConfig?_iff hNames hAt
  · intro path
    rw [Option.map_eq_some_iff]
    constructor
    · rintro ⟨file, hFound, rfl⟩
      obtain ⟨dir, name, rfl, hNearest⟩ := FileTree.exists_nearest hNames hAt hFound
      exact ⟨dir, name, rfl, hNearest⟩
    · rintro ⟨dir, name, rfl, hNearest⟩
      have hSome := (FileTree.isSome_nearestConfig?_iff hNames hAt).mpr
        ⟨dir, name, hNearest.above, hNearest.listed, hNearest.holds⟩
      obtain ⟨file, hFound⟩ := Option.isSome_iff_exists.mp hSome
      obtain ⟨dir', name', rfl, hFirst⟩ := FileTree.exists_nearest hNames hAt hFound
      obtain ⟨rfl, rfl⟩ := hNearest.unique hFirst
      exact ⟨_, hFound, rfl⟩

/-- A directory that is called like a configuration file is passed over, and a file further up with
an earlier name does not matter. -/
theorem nearest_config_found_above :
    let inner : FileTree := .directory [(".lintseedrc.json", .directory [])]
    let outer : FileTree :=
      .directory [(".lintseedrc.toml", .directory []), (".lintseedrc.yaml", .file (some "")),
        (".lintseedrc.yml", .link ".lintseedrc.yaml"), ("b", inner)]
    let p : Project :=
      ⟨.directory [(".lintseedrc.json", .file (some "\x7b\x7d")), ("a", outer)], "/a/b"⟩
    p.tree.isDirectory (p.absolute "/a/b") = true ∧
      p.discoverConfig "/a/b" = .ok (some "/a/.lintseedrc.yaml") := by
  intro inner outer p
  have hRooted : p.Rooted ["a", "b"] := ⟨rfl, by decide, ⟨_, rfl⟩⟩
  have hResolve : p.tree.resolve (p.absolute "/a/b") = .ok ["a", "b"] := hRooted.resolve_root
  have hStart : p.tree.isDirectory (p.absolute "/a/b") = true := by
    rw [FileTree.isDirectory, FileTree.node?, hResolve]
    rfl
  obtain ⟨here, found, hHere, hFound, -, hNearest⟩ := nearest_config_found p "/a/b" hStart
  cases hHere.symm.trans hResolve
  have hListed {other : String} (hOther : other ∈ configFileNames) : other = ".lintseedrc.json" ∨
      other = ".lintseedrc.toml" ∨ other = ".lintseedrc.yaml" ∨ other = ".lintseedrc.yml" := by
    simpa [configFileNames] using hOther
  have hInner : ∀ other ∈ configFileNames, ¬p.tree.Holds ["a", "b"] other := by
    intro other hOther
    apply FileTree.not_holds_of_directory
    rcases hListed hOther with rfl | rfl | rfl | rfl <;> rintro node ⟨⟩
    exact ⟨_, rfl⟩
  have hFirst : NearestConfig p.tree ["a", "b"] ["a"] ".lintseedrc.yaml" := by
    refine ⟨⟨["b"], rfl⟩, by decide, .file _ rfl, fun d hd other hOther hHolds => ?_, ?_⟩
    · rcases List.prefix_concat_iff.mp (show d <+: ["a"] ++ ["b"] from hd) with rfl | hAbove
      · exact absurd hHolds (hInner other hOther)
      · exact hAbove
    · intro other hOther hHolds
      rcases hListed hOther with rfl | rfl | rfl | rfl
      · exact absurd hHolds (FileTree.not_holds_of_directory (by rintro node ⟨⟩))
      · exact absurd hHolds (FileTree.not_holds_of_directory (by rintro node ⟨⟩; exact ⟨_, rfl⟩))
      · exact le_rfl
      · decide
  refine ⟨hStart, ?_⟩
  rw [hFound, (hNearest "/a/.lintseedrc.yaml").mpr ⟨["a"], _, rfl, hFirst⟩]

end RuleScout
