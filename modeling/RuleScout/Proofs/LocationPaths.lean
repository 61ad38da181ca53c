import Mathlib.Data.List.Induction
import RuleScout.Files.Selection
import RuleScout.Proofs.Paths
import RuleScout.Proofs.TreeWrites

/-!
# The paths of locations

A location that is made of names has a path that leads back to it, as long as no link is there.
The directory in which a command runs is such a location.
-/

set_option autoImplicit false

namespace RuleScout

/-- What an entry of a directory can be called. -/
structure IsName (name : String) : Prop where
  nonempty : name ≠ ""
  unbroken : '/' ∉ name.toList
  not_here : name ≠ "."
  not_up : name ≠ ".."

theorem isName_iff (name : String) :
    IsName name ↔ name ≠ "" ∧ '/' ∉ name.toList ∧ name ≠ "." ∧ name ≠ ".." :=
  ⟨fun h => ⟨h.1, h.2, h.3, h.4⟩, fun ⟨h₁, h₂, h₃, h₄⟩ => ⟨h₁, h₂, h₃, h₄⟩⟩

instance : DecidablePred IsName := fun name => decidable_of_iff _ (isName_iff name).symm

variable {l r : Location} {name path : String} {t node : FileTree}

namespace Path

theorem pieces_slash (a b : String) : pieces (a ++ "/" ++ b) = pieces a ++ pieces b := by
  have hSplit : (a ++ "/" ++ b).toList = a.toList ++ '/' :: b.toList := by simp
  rw [pieces_eq, hSplit, List.splitOnP_append_cons _ _ (by rfl), List.map_append, List.filter_append,
    pieces_eq, pieces_eq]

theorem pieces_name (hName : IsName name) : pieces name = [name] := by
  have hWhole : name.toList.splitOnP (· == '/') = [name.toList] := by
    apply List.splitOnP_eq_singleton
    intro c hc
    rw [beq_eq_false_iff_ne]
    exact fun h => hName.unbroken (h ▸ hc)
  rw [pieces_eq, hWhole]
  simp [hName.nonempty]

theorem endsWith_name (hName : IsName name) (a : String) : (a ++ name).endsWith "/" = false := by
  rw [String.endsWith, String.Slice.endsWith_string_eq_false_iff, String.copy_toSlice]
  rintro ⟨before, hEnd⟩
  have hNonempty : name.toList ≠ [] := mt String.toList_eq_nil_iff.mp hName.nonempty
  have hLast : name.toList.getLast? = some '/' := by
    rw [← List.getLast?_append_of_ne_nil a.toList hNonempty, ← String.toList_append, ← hEnd]
    exact List.getLast?_concat
  exact hName.unbroken (List.mem_of_getLast? hLast)

theorem isAbsolute_name (hName : IsName name) : isAbsolute name = false := by
  rw [isAbsolute, decide_eq_false_iff_not]
  exact fun h => hName.unbroken (List.mem_of_head? h)

end Path

namespace Location

theorem toPath_concat (l : Location) (name : String) :
    toPath (l ++ [name]) = (if l = [] then "" else toPath l) ++ "/" ++ name := by
  cases l with
  | nil => rw [toPath, List.nil_append, String.intercalate_singleton, if_pos rfl, String.empty_append]
  | cons first l =>
    rw [toPath, String.intercalate_append_of_ne_nil (List.cons_ne_nil _ _) (List.cons_ne_nil _ _),
      String.intercalate_singleton, if_neg (List.cons_ne_nil _ _), toPath]
    simp only [String.append_assoc]

theorem pieces_toPath (hNames : ∀ name ∈ l, IsName name) : Path.pieces l.toPath = l := by
  induction l using List.reverseRecOn with
  | nil =>
    rw [Path.pieces_eq]
    decide
  | append_singleton l name ih =>
    have hFirst := ih fun n hn => hNames n (List.mem_append_left _ hn)
    have hName := hNames name (by simp)
    rw [toPath_concat, Path.pieces_slash, Path.pieces_name hName]
    split
    · subst l
      rw [Path.pieces_eq]
      rfl
    · rw [hFirst]

theorem endsWith_toPath_concat (l : Location) (hName : IsName name) :
    (toPath (l ++ [name])).endsWith "/" = false := by
  rw [toPath_concat]
  exact Path.endsWith_name hName _

theorem steps_toPath_concat (hNames : ∀ name ∈ l, IsName name) (hName : IsName name) :
    FileTree.steps (toPath (l ++ [name])) = l ++ [name] := by
  have hAll : ∀ n ∈ l ++ [name], IsName n := by
    simpa [or_imp, forall_and] using ⟨hNames, hName⟩
  rw [FileTree.steps, pieces_toPath hAll, endsWith_toPath_concat l hName,
    if_neg Bool.false_ne_true, List.append_nil]

theorem isAbsolute_toPath (l : Location) : Path.isAbsolute l.toPath = true := by
  rw [Path.isAbsolute, toPath]
  simp

theorem join_toPath (hNames : ∀ name ∈ l, IsName name) (hName : IsName name) :
    Path.join l.toPath name = toPath (l ++ [name]) := by
  rw [Path.join, Path.isAbsolute_name hName, toPath_concat]
  obtain rfl | ⟨parent, last, rfl⟩ := l.eq_nil_or_concat'
  · have hSlash : (toPath []).endsWith "/" = true := by
      rw [String.endsWith, String.Slice.endsWith_string_iff]
      exact List.suffix_refl _
    rw [hSlash]
    rfl
  · have hLast : IsName last := hNames last (by simp)
    have hFull : toPath (parent ++ [last]) ≠ "" := by
      rw [toPath]
      simp
    rw [endsWith_toPath_concat parent hLast, if_neg (by simpa using hFull),
      if_neg Bool.false_ne_true, if_neg (by simp)]

end Location

/-! ## Ways without links -/

namespace FileTree

theorem directory_above {m : Location} {entries : List (String × FileTree)}
    (hAt : t.at? (l ++ m) = some (.directory entries)) :
    ∃ above, t.at? l = some (.directory above) := by
  rw [at?_append, Option.bind_eq_some_iff] at hAt
  obtain ⟨node, hNode, hAt⟩ := hAt
  cases m with
  | nil =>
    cases hAt
    exact ⟨entries, hNode⟩
  | cons name m =>
    obtain ⟨above, -, rfl, -⟩ := exists_of_at?_cons hAt
    exact ⟨above, hNode⟩

theorem advance_entry {here : Location} {entries : List (String × FileTree)} (hName : IsName name)
    (hHere : t.at? here = some (.directory entries)) (rest : List String) :
    t.advance here (name :: rest) =
      match t.at? (here ++ [name]) with
      | none => if rest = [] then .absent (here ++ [name]) else .fault .missing
      | some (.link target) => .link here target rest
      | some _ => t.advance (here ++ [name]) rest := by
  rw [advance_directory hHere]
  exact (if_neg hName.not_here).trans (if_neg hName.not_up)

/-- On the way down to a directory no link is met. -/
theorem advance_down {here m : Location} {entries : List (String × FileTree)}
    (hNames : ∀ name ∈ m, IsName name) (hAt : t.at? (here ++ m) = some (.directory entries))
    (rest : List String) : t.advance here (m ++ rest) = t.advance (here ++ m) rest := by
  induction m generalizing here with
  | nil => rw [List.nil_append, List.append_nil]
  | cons name m ih =>
    obtain ⟨above, hHere⟩ := directory_above hAt
    rw [List.append_cons] at hAt ⊢
    obtain ⟨next, hNext⟩ := directory_above hAt
    rw [List.cons_append, advance_entry (hNames name List.mem_cons_self) hHere, hNext]
    exact ih (fun n hn => hNames n (List.mem_cons_of_mem _ hn)) hAt

theorem endOf_of_advance {way : List String} (hSteps : steps path = way)
    (hStop : t.advance [] way = .arrived l ∨ t.advance [] way = .absent l) :
    t.endOf path = some l := by
  rw [endOf, hSteps, follow]
  rcases hStop with hStop | hStop <;> rw [hStop] <;> rfl

/-- The path of an entry of a directory leads to that entry, unless it is a link. -/
theorem endOf_toPath {entries : List (String × FileTree)} (hNames : ∀ name ∈ l, IsName name)
    (hName : IsName name) (hAt : t.at? l = some (.directory entries))
    (hPlain : ∀ target, t.at? (l ++ [name]) ≠ some (.link target)) :
    t.endOf (Location.toPath (l ++ [name])) = some (l ++ [name]) := by
  apply endOf_of_advance (Location.steps_toPath_concat hNames hName)
  have hStart : t.at? ([] ++ l) = some (.directory entries) := hAt
  rw [advance_down hNames hStart, List.nil_append, advance_entry hName hAt]
  split
  · exact .inr (if_pos rfl)
  · exact absurd ‹_› (hPlain _)
  · exact .inl rfl

/-- The path of a directory leads to it. -/
theorem endOf_directory {entries : List (String × FileTree)} (hNames : ∀ name ∈ l, IsName name)
    (hAt : t.at? l = some (.directory entries)) : t.endOf l.toPath = some l := by
  obtain rfl | ⟨parent, name, rfl⟩ := l.eq_nil_or_concat'
  · have hSteps : steps (Location.toPath []) = ["."] := by
      rw [steps_eq]
      decide +kernel
    apply endOf_of_advance hSteps
    rw [advance_directory hAt, if_pos rfl]
    exact .inl rfl
  · obtain ⟨above, hParent⟩ := directory_above hAt
    exact endOf_toPath (fun n hn => hNames n (List.mem_append_left _ hn)) (hNames name (by simp))
      hParent (by simp [hAt])

/-- A file of a directory can be written, and so can one that is not there yet. -/
theorem write_entry {entries : List (String × FileTree)} (hNames : ∀ name ∈ l, IsName name)
    (hName : IsName name) (hAt : t.at? l = some (.directory entries))
    (hPlace : t.at? (l ++ [name]) = none ∨ ∃ old, t.at? (l ++ [name]) = some (.file old))
    (text : String) :
    t.write (Location.toPath (l ++ [name])) text = .ok (t.put (l ++ [name]) (.file (some text))) := by
  have hPlain (target : String) : t.at? (l ++ [name]) ≠ some (.link target) := by
    rcases hPlace with hNone | ⟨old, hOld⟩
    · simp [hNone]
    · simp [hOld]
  have hEnd := toOption_eq_some_iff.mp (endOf_toPath hNames hName hAt hPlain)
  have hDestination := destination_eq_ok_iff.mpr ⟨hEnd, hPlace⟩
  rw [write, writable, Location.endsWith_toPath_concat l hName, if_neg Bool.false_ne_true,
    hDestination]
  rfl

end FileTree

/-! ## The directory of a command -/

/-- The path of an entry of the directory at `r`. -/
abbrev entryPath (r : Location) (name : String) : String := Location.toPath (r ++ [name])

/-- The command runs in a directory, and its path is the path of that directory's location. -/
structure Project.Rooted (p : Project) (r : Location) : Prop where
  root : p.root = r.toPath
  names : ∀ name ∈ r, IsName name
  directory : ∃ entries, p.tree.at? r = some (.directory entries)

theorem Project.absolute_entry (p : Project) (r : Location) (name : String) :
    p.absolute (entryPath r name) = entryPath r name := by
  rw [Project.absolute, Path.join, Location.isAbsolute_toPath, Bool.true_or, if_pos rfl]

namespace Project.Rooted

variable {p : Project}

theorem absolute_name (h : p.Rooted r) (hName : IsName name) :
    p.absolute name = entryPath r name := by
  rw [absolute, h.root, Location.join_toPath h.names hName]

theorem absolute_root (h : p.Rooted r) : p.absolute p.root = p.root := by
  rw [absolute, Path.join, h.root, Location.isAbsolute_toPath, Bool.true_or, if_pos rfl]

theorem resolve_root (h : p.Rooted r) : p.tree.resolve (p.absolute p.root) = .ok r := by
  obtain ⟨entries, hAt⟩ := h.directory
  rw [absolute_root h, FileTree.resolve_eq_ok_iff, h.root]
  exact ⟨FileTree.endOf_directory h.names hAt, Option.isSome_of_eq_some hAt⟩

theorem node?_entry (h : p.Rooted r) (hName : IsName name)
    (hPlain : ∀ target, p.tree.at? (r ++ [name]) ≠ some (.link target)) :
    p.tree.node? (entryPath r name) = p.tree.at? (r ++ [name]) := by
  obtain ⟨entries, hAt⟩ := h.directory
  rw [FileTree.node?_eq, FileTree.endOf_toPath h.names hName hAt hPlain, Option.bind_some]

end Project.Rooted

end RuleScout
