import Mathlib.Data.List.Basic
import RuleScout.Files.Tree
import RuleScout.Proofs.Fallible
import RuleScout.Proofs.NameMap

/-!
# Writing to one file of a tree

A write goes to one location, which is a file or free in a directory. What is at any other
location stays, and so every other way through the tree leads where it led before.
-/

set_option autoImplicit false

namespace RuleScout.FileTree

open NameMap (lookup_cons_eq_ite)

variable {t t' node old : FileTree} {l m here : Location} {entries : List (String × FileTree)}
variable {name path text : String}

/-! ## Looking up locations -/

@[simp]
theorem at?_nil (t : FileTree) : t.at? [] = some t := by rw [at?]

theorem at?_cons (entries : List (String × FileTree)) (name : String) (l : Location) :
    at? (name :: l) (.directory entries) = (entries.lookup name).bind (at? l) := by rw [at?]

theorem at?_append (t : FileTree) (l m : Location) :
    t.at? (l ++ m) = (t.at? l).bind (at? m) := by
  induction l generalizing t with
  | nil => rw [List.nil_append, at?_nil, Option.bind_some]
  | cons name l ih =>
    cases t with
    | directory entries =>
      rw [List.cons_append, at?_cons, at?_cons, Option.bind_assoc]
      exact Option.bind_congr fun t _ => ih t
    | file text => rfl
    | link target => rfl

theorem at?_concat (hHere : t.at? here = some (.directory entries)) (name : String) :
    t.at? (here ++ [name]) = entries.lookup name := by
  rw [at?_append, hHere, Option.bind_some, at?_cons]
  cases entries.lookup name <;> simp

theorem exists_of_at?_cons (hAt : t.at? (name :: l) = some node) :
    ∃ entries child, t = .directory entries ∧ entries.lookup name = some child ∧
      child.at? l = some node := by
  cases t with
  | directory entries =>
    rw [at?_cons, Option.bind_eq_some_iff] at hAt
    obtain ⟨child, hChild, hAt⟩ := hAt
    exact ⟨entries, child, rfl, hChild, hAt⟩
  | file text => cases hAt
  | link target => cases hAt

/-! ## Trees that differ at one location -/

/-- Two nodes are of one kind, with the same text or target. What is in a directory is said of
the locations below it. -/
inductive Alike : Option FileTree → Option FileTree → Prop
  | none : Alike none none
  | file (text : Option String) : Alike (some (.file text)) (some (.file text))
  | link (target : String) : Alike (some (.link target)) (some (.link target))
  | directory (entries entries' : List (String × FileTree)) :
    Alike (some (.directory entries)) (some (.directory entries'))

theorem Alike.refl : ∀ node : Option FileTree, Alike node node
  | Option.none => .none
  | some (.file text) => .file text
  | some (.link target) => .link target
  | some (.directory entries) => .directory entries entries

/-- Nothing has changed but what is at one location. -/
def AgreeOff (l : Location) (t t' : FileTree) : Prop := ∀ m, m ≠ l → Alike (t.at? m) (t'.at? m)

theorem at?_file_below (text : Option String) (hBelow : l ≠ []) : at? l (.file text) = none := by
  cases l with
  | nil => exact absurd rfl hBelow
  | cons name l => rfl

theorem agreeOff_file (text text' : Option String) :
    AgreeOff [] (.file text) (.file text') := by
  intro m hBelow
  rw [at?_file_below text hBelow, at?_file_below text' hBelow]
  exact .none

theorem lookup_concat (entries : List (String × FileTree)) (name key : String)
    (node : FileTree) :
    (entries ++ [(name, node)]).lookup key =
      (entries.lookup key).or (if key = name then some node else none) := by
  rw [List.lookup_append, lookup_cons_eq_ite]
  rfl

theorem agreeOff_new (hNew : entries.lookup name = none) (text : Option String) :
    AgreeOff [name] (.directory entries) (.directory (entries ++ [(name, .file text)])) := by
  intro m hOther
  cases m with
  | nil => exact .directory _ _
  | cons key m =>
    rw [at?_cons, at?_cons, lookup_concat]
    by_cases hKey : key = name
    · subst hKey
      have hBelow : m ≠ [] := fun h => hOther (by rw [h])
      rw [hNew, if_pos rfl, Option.none_or, Option.bind_none, Option.bind_some,
        at?_file_below text hBelow]
      exact .none
    · rw [if_neg hKey, Option.or_none]
      exact .refl _

/-! ## Putting a node at a location -/

theorem lookup_map_replace (entries : List (String × FileTree)) (f : FileTree → FileTree)
    (name key : String) :
    (entries.map fun e => if e.1 = name then (e.1, f e.2) else e).lookup key =
      (entries.lookup key).map fun t => if key = name then f t else t := by
  induction entries with
  | nil => rfl
  | cons e entries ih =>
    obtain ⟨n, t⟩ := e
    have hEntry : (if n = name then (n, f t) else (n, t)) = (n, if n = name then f t else t) := by
      split <;> rfl
    rw [List.map_cons, hEntry, lookup_cons_eq_ite, ih, lookup_cons_eq_ite]
    by_cases hKey : key = n
    · rw [if_pos hKey, if_pos hKey, Option.map_some, hKey]
    · rw [if_neg hKey, if_neg hKey]

theorem put_cons {child : FileTree} (hChild : entries.lookup name = some child)
    (l : Location) (node : FileTree) :
    put (.directory entries) (name :: l) node =
      .directory (entries.map fun e => if e.1 = name then (e.1, e.2.put l node) else e) := by
  rw [put, hChild, Option.isSome_some, if_pos rfl]

theorem put_new (hNew : entries.lookup name = none) (node : FileTree) :
    put (.directory entries) [name] node = .directory (entries ++ [(name, node)]) := by
  rw [put, hNew, Option.isSome_none, if_neg Bool.false_ne_true, put]

/-- Below a node that is there, a node is put as it is put below that node alone. -/
theorem at?_put_append (hAt : t.at? l = some old) (m k : Location) (node : FileTree) :
    (t.put (l ++ m) node).at? (l ++ k) = (old.put m node).at? k := by
  induction l generalizing t with
  | nil =>
    cases hAt
    rfl
  | cons name l ih =>
    obtain ⟨entries, child, rfl, hChild, hAt⟩ := exists_of_at?_cons hAt
    rw [List.cons_append, List.cons_append, put_cons hChild, at?_cons,
      lookup_map_replace entries (·.put (l ++ m) node), hChild, Option.map_some, if_pos rfl,
      Option.bind_some, ih hAt]

theorem AgreeOff.put (hAt : t.at? l = some old) (hAgree : AgreeOff m old (old.put m node)) :
    AgreeOff (l ++ m) t (t.put (l ++ m) node) := by
  induction l generalizing t with
  | nil =>
    cases hAt
    exact hAgree
  | cons name l ih =>
    obtain ⟨entries, child, rfl, hChild, hBelow⟩ := exists_of_at?_cons hAt
    rw [List.cons_append, put_cons hChild]
    intro k hOther
    cases k with
    | nil => exact .directory _ _
    | cons key k =>
      rw [at?_cons, at?_cons, lookup_map_replace entries (·.put (l ++ m) node)]
      by_cases hKey : key = name
      · subst hKey
        rw [hChild, Option.map_some, if_pos rfl, Option.bind_some, Option.bind_some]
        exact ih hBelow k fun h => hOther (by rw [h])
      · simp only [if_neg hKey, Option.map_id']
        exact .refl _

/-! ## Where ways end -/

/-- A name that a directory does not have yet. -/
def Vacant (t : FileTree) (l : Location) : Prop :=
  ∃ parent entries name, l = parent ++ [name] ∧ t.at? parent = some (.directory entries) ∧
    entries.lookup name = none

/-- What a way can end at. -/
def Endable (t : FileTree) (l : Location) : Prop := (t.at? l).isSome ∨ t.Vacant l

theorem at?_dropLast (hHere : t.at? here = some (.directory entries)) :
    (t.at? here.dropLast).isSome := by
  obtain rfl | ⟨parent, name, rfl⟩ := here.eq_nil_or_concat'
  · exact Option.isSome_of_eq_some hHere
  · rw [List.dropLast_concat]
    rw [at?_append, Option.bind_eq_some_iff] at hHere
    obtain ⟨node, hParent, -⟩ := hHere
    exact Option.isSome_of_eq_some hParent

/-- What can be said of the end of a way that starts at something. -/
def Stop.Sound (t : FileTree) : Stop → Prop
  | .arrived l => (t.at? l).isSome
  | .absent l => t.Vacant l
  | .link parent _ _ => (t.at? parent).isSome
  | .fault _ => True

theorem advance_directory (hHere : t.at? here = some (.directory entries)) (step : String)
    (rest : List String) :
    t.advance here (step :: rest) =
      if step = "." then t.advance here rest
      else if step = ".." then t.advance here.dropLast rest
      else
        match t.at? (here ++ [step]) with
        | none => if rest = [] then .absent (here ++ [step]) else .fault .missing
        | some (.link target) => .link here target rest
        | some _ => t.advance (here ++ [step]) rest := by
  rw [at?_concat hHere, advance]
  generalize t.at? here = there at hHere
  subst hHere
  rfl

theorem advance_fault {there : Option FileTree} (hHere : t.at? here = there)
    (hNode : ∀ entries, there ≠ some (.directory entries)) (step : String)
    (rest : List String) : ∃ f, t.advance here (step :: rest) = .fault f := by
  rw [advance]
  split
  · rename_i entries hDirectory
    exact absurd (hHere.symm.trans hDirectory) (hNode entries)
  · exact ⟨_, rfl⟩
  · exact ⟨_, rfl⟩

theorem sound_advance (hHere : (t.at? here).isSome) (way : List String) :
    (t.advance here way).Sound t := by
  induction way generalizing here with
  | nil => exact hHere
  | cons step rest ih =>
    rw [advance]
    split
    · rename_i entries hDirectory
      split
      · exact ih hHere
      · split
        · exact ih (at?_dropLast hDirectory)
        · split
          · rename_i hNew
            split
            · exact ⟨here, entries, step, rfl, hDirectory, hNew⟩
            · trivial
          · exact hHere
          · rename_i hNode
            exact ih (Option.isSome_of_eq_some ((at?_concat hDirectory step).trans hNode))
    · trivial
    · trivial

theorem isSome_linkStart (hParent : (t.at? here).isSome) (target : String) :
    (t.at? (linkStart here target)).isSome := by
  rw [linkStart]
  split
  · exact Option.isSome_of_eq_some (at?_nil t)
  · exact hParent

theorem endable_follow {links : Nat} {way : List String} (hHere : (t.at? here).isSome)
    (hEnd : t.follow links here way = .ok l) : t.Endable l := by
  fun_induction follow t links here way with
  | case1 _ here way m hStop =>
    have hSound := sound_advance hHere way
    rw [hStop] at hSound
    cases hEnd
    exact .inl hSound
  | case2 _ here way m hStop =>
    have hSound := sound_advance hHere way
    rw [hStop] at hSound
    cases hEnd
    exact .inr hSound
  | case3 => cases hEnd
  | case4 => cases hEnd
  | case5 here way parent target rest hStop links ih =>
    have hSound := sound_advance hHere way
    rw [hStop] at hSound
    exact ih (isSome_linkStart hSound target) hEnd

/-! ## One file written -/

/-- A tree before and after a text has been written to a location. -/
structure Rewritten (l : Location) (text : String) (t t' : FileTree) : Prop where
  before : t.at? l = none ∨ ∃ old, t.at? l = some (.file old)
  written : t'.at? l = some (.file (some text))
  elsewhere : AgreeOff l t t'

namespace Rewritten

/-- What becomes of the end of a way by the write. The free location may have been filled. -/
inductive Keeps : Stop → Stop → Prop
  | arrived (l : Location) : Keeps (.arrived l) (.arrived l)
  | absent (l : Location) : Keeps (.absent l) (.absent l)
  | filled (l : Location) : Keeps (.absent l) (.arrived l)
  | link (parent : Location) (target : String) (rest : List String) :
    Keeps (.link parent target rest) (.link parent target rest)
  | fault (f f' : PathFault) : Keeps (.fault f) (.fault f')

theorem keeps_fault {node node' : Option FileTree} (hNode : t.at? here = node)
    (hNode' : t'.at? here = node') (hPlain : ∀ entries, node ≠ some (.directory entries))
    (hPlain' : ∀ entries, node' ≠ some (.directory entries)) (step : String)
    (rest : List String) :
    Keeps (t.advance here (step :: rest)) (t'.advance here (step :: rest)) := by
  obtain ⟨f, hFault⟩ := advance_fault hNode hPlain step rest
  obtain ⟨f', hFault'⟩ := advance_fault hNode' hPlain' step rest
  rw [hFault, hFault']
  exact .fault f f'

/-- Going on to an entry of a directory, where the ways on are kept. -/
theorem keeps_entry (h : Rewritten l text t t') {step : String} {rest : List String}
    (hRest : ∀ here, Keeps (t.advance here rest) (t'.advance here rest)) :
    Keeps
      (match t.at? (here ++ [step]) with
        | none => if rest = [] then .absent (here ++ [step]) else .fault .missing
        | some (.link target) => .link here target rest
        | some _ => t.advance (here ++ [step]) rest)
      (match t'.at? (here ++ [step]) with
        | none => if rest = [] then .absent (here ++ [step]) else .fault .missing
        | some (.link target) => .link here target rest
        | some _ => t'.advance (here ++ [step]) rest) := by
  by_cases hAt : here ++ [step] = l
  · rw [hAt, h.written]
    rcases h.before with hNone | ⟨old, hOld⟩
    · rw [hNone]
      cases rest with
      | nil => exact .filled l
      | cons next rest =>
        obtain ⟨f, hFault⟩ := advance_fault h.written nofun next rest
        rw [if_neg (List.cons_ne_nil next rest)]
        exact hFault ▸ .fault _ f
    · rw [hOld]
      exact hRest l
  · have hThere := h.elsewhere _ hAt
    generalize t.at? (here ++ [step]) = node, t'.at? (here ++ [step]) = node' at hThere
    cases hThere with
    | none =>
      by_cases hRest : rest = []
      · simp only [if_pos hRest]
        exact .absent _
      · simp only [if_neg hRest]
        exact .fault _ _
    | file text => exact hRest _
    | link target => exact .link here target rest
    | directory entries entries' => exact hRest _

theorem keeps_advance (h : Rewritten l text t t') (here : Location) (way : List String) :
    Keeps (t.advance here way) (t'.advance here way) := by
  induction way generalizing here with
  | nil => exact .arrived here
  | cons step rest ih =>
    by_cases hAt : here = l
    · subst hAt
      rcases h.before with hNone | ⟨old, hOld⟩
      · exact keeps_fault hNone h.written nofun nofun step rest
      · exact keeps_fault hOld h.written nofun nofun step rest
    · have hHere := h.elsewhere here hAt
      generalize hNode : t.at? here = node, hNode' : t'.at? here = node' at hHere
      cases hHere with
      | none => exact keeps_fault hNode hNode' nofun nofun step rest
      | file text => exact keeps_fault hNode hNode' nofun nofun step rest
      | link target => exact keeps_fault hNode hNode' nofun nofun step rest
      | directory entries entries' =>
        rw [advance_directory hNode, advance_directory hNode']
        split
        · exact ih here
        · split
          · exact ih here.dropLast
          · exact keeps_entry h ih

theorem toOption_follow (h : Rewritten l text t t') (links : Nat) (here : Location)
    (way : List String) :
    (t'.follow links here way).toOption = (t.follow links here way).toOption := by
  induction links generalizing here way with
  | zero =>
    have hKeeps := keeps_advance h here way
    rw [follow, follow]
    generalize t.advance here way = stop, t'.advance here way = stop' at hKeeps
    cases hKeeps <;> rfl
  | succ links ih =>
    have hKeeps := keeps_advance h here way
    rw [follow, follow]
    generalize t.advance here way = stop, t'.advance here way = stop' at hKeeps
    cases hKeeps with
    | link parent target rest => exact ih _ _
    | _ => rfl

end Rewritten

theorem rewritten_file {old : Option String} (hAt : t.at? l = some (.file old)) (text : String) :
    Rewritten l text t (t.put l (.file (some text))) where
  before := .inr ⟨old, hAt⟩
  written := by
    have hPut := at?_put_append hAt [] [] (.file (some text))
    rwa [List.append_nil] at hPut
  elsewhere := by
    have hAgree := AgreeOff.put hAt (agreeOff_file old (some text))
    rwa [List.append_nil] at hAgree

theorem rewritten_new (hVacant : t.Vacant l) (text : String) :
    Rewritten l text t (t.put l (.file (some text))) := by
  obtain ⟨parent, entries, name, rfl, hParent, hNew⟩ := hVacant
  have hPut := put_new hNew (.file (some text))
  constructor
  · exact .inl ((at?_concat hParent name).trans hNew)
  · rw [at?_put_append hParent, hPut, at?_cons, lookup_concat, hNew, if_pos rfl]
    rfl
  · exact AgreeOff.put hParent (hPut ▸ agreeOff_new hNew (some text))

/-! ## Paths before and after a write -/

/-- The location that a path leads to, whether or not something is there. -/
def endOf (t : FileTree) (path : String) : Option Location :=
  (t.follow linkLimit [] (steps path)).toOption

theorem node?_eq (t : FileTree) (path : String) :
    t.node? path = (t.endOf path).bind fun l => t.at? l := by
  rw [node?, resolve, locate, endOf]
  cases t.follow linkLimit [] (steps path) with
  | error f => rfl
  | ok l => cases hAt : t.at? l <;> simp [bind, Except.bind, Except.toOption, hAt]

theorem resolve_eq_ok_iff :
    t.resolve path = .ok l ↔ t.endOf path = some l ∧ (t.at? l).isSome := by
  rw [resolve, locate, endOf]
  cases t.follow linkLimit [] (steps path) with
  | error f => simp [bind, Except.bind, Except.toOption]
  | ok m => cases hAt : t.at? m <;> simp [bind, Except.bind, Except.toOption] <;> grind

theorem read_eq_ok_iff : t.read path = .ok text ↔ t.node? path = some (.file (some text)) := by
  rw [read, node?]
  cases t.resolve path with
  | error f => simp [bind, Except.bind]
  | ok l =>
    simp only [bind, Except.bind]
    split <;> simp_all

theorem isFile_iff : t.isFile path = true ↔ ∃ text, t.node? path = some (.file text) := by
  rw [isFile]
  split <;> simp_all

theorem destination_eq_ok_iff {way : List String} :
    t.destination way = .ok l ↔
      t.follow linkLimit [] way = .ok l ∧
        (t.at? l = none ∨ ∃ old, t.at? l = some (.file old)) := by
  rw [destination, bind_eq_ok_iff]
  constructor
  · rintro ⟨m, hEnd, h⟩
    split at h
    · cases h
      exact ⟨hEnd, .inl ‹_›⟩
    · cases h
      exact ⟨hEnd, .inr ⟨_, ‹_›⟩⟩
    · cases h
    · cases h
  · rintro ⟨hEnd, hNone | ⟨old, hOld⟩⟩
    · exact ⟨l, hEnd, by rw [hNone]⟩
    · exact ⟨l, hEnd, by rw [hOld]⟩

theorem writable_eq_ok (hWritable : t.writable path = .ok l) :
    t.destination (steps path) = .ok l := by
  rw [writable] at hWritable
  split at hWritable
  · rw [bind_eq_ok_iff] at hWritable
    obtain ⟨parent, -, h⟩ := hWritable
    split at h <;> cases h
  · exact hWritable

theorem rewritten_of_write (hWrite : t.write path text = .ok t') :
    ∃ l, t.endOf path = some l ∧ Rewritten l text t t' := by
  obtain ⟨l, hWritable, rfl⟩ := map_eq_ok_iff.mp hWrite
  obtain ⟨hEnd, hBefore⟩ := destination_eq_ok_iff.mp (writable_eq_ok hWritable)
  refine ⟨l, toOption_eq_some_iff.mpr hEnd, ?_⟩
  rcases endable_follow (Option.isSome_of_eq_some (at?_nil t)) hEnd with hSome | hVacant
  · rcases hBefore with hNone | ⟨old, hOld⟩
    · rw [hNone] at hSome
      cases hSome
    · exact rewritten_file hOld text
  · exact rewritten_new hVacant text

namespace Rewritten

theorem endOf (h : Rewritten l text t t') (path : String) : t'.endOf path = t.endOf path :=
  h.toOption_follow linkLimit [] (steps path)

theorem node?_self (h : Rewritten l text t t') (hEnd : t.endOf path = some l) :
    t'.node? path = some (.file (some text)) := by
  rw [node?_eq, h.endOf, hEnd, Option.bind_some, h.written]

theorem alike_node? (h : Rewritten l text t t') (hEnd : t.endOf path ≠ some l) :
    Alike (t.node? path) (t'.node? path) := by
  rw [node?_eq, node?_eq, h.endOf]
  cases hOther : t.endOf path with
  | none => exact .none
  | some m => exact h.elsewhere m fun hm => hEnd (hm ▸ hOther)

end Rewritten

end RuleScout.FileTree
