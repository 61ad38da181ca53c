import Mathlib.Data.List.Basic
import RuleScout.Config.Merge
import RuleScout.Proofs.NameMap

/-!
# Building configurations on one another

What a configuration says wins over what its parent says, field by field. So it does not matter
where a chain of parents is put together first, and a parent that was merged before has nothing to
add.
-/

set_option autoImplicit false

namespace RuleScout

namespace NameMap

variable {α : Type}

theorem orElse_assoc (m n k : NameMap α) : (m.orElse n).orElse k = m.orElse (n.orElse k) := by
  apply ext_get?
  intro name
  rw [get?_orElse, get?_orElse, get?_orElse, get?_orElse, Option.or_assoc]

theorem orElse_self (m : NameMap α) : m.orElse m = m := by
  apply ext_get?
  intro name
  rw [get?_orElse, Option.or_self]

theorem orElse_empty (m : NameMap α) : m.orElse empty = m := rfl

end NameMap

/-! ## Files -/

namespace FileSelection

theorem merge_eq (f parent : FileSelection) :
    f.merge parent =
      ⟨f.included.or parent.included, f.excluded.or parent.excluded,
        f.extensions.or parent.extensions⟩ := by
  simp only [merge, Option.orElse_eq_orElse, Option.orElse_eq_or]

theorem merge_assoc (f g h : FileSelection) : (f.merge g).merge h = f.merge (g.merge h) := by
  simp only [merge_eq, Option.or_assoc]

theorem merge_self (f : FileSelection) : f.merge f = f := by
  rw [merge_eq, Option.or_self, Option.or_self, Option.or_self]

end FileSelection

namespace Config

variable {p : String} {xs ys zs : List String}

theorem mergeFiles_assoc (f g h : Option FileSelection) :
    mergeFiles (mergeFiles f g) h = mergeFiles f (mergeFiles g h) := by
  cases f with
  | none => rfl
  | some f =>
    cases g with
    | none => rfl
    | some g =>
      cases h with
      | none => rfl
      | some h => exact congrArg some (f.merge_assoc g h)

theorem mergeFiles_self (f : Option FileSelection) : mergeFiles f f = f := by
  cases f with
  | none => rfl
  | some f => exact congrArg some f.merge_self

theorem mergeFiles_none (f : Option FileSelection) : mergeFiles f none = f := by
  cases f <;> rfl

/-- A field of the files, whether or not there is anything about files at all. -/
theorem bind_mergeFiles {α : Type} (field : FileSelection → Option α)
    (hField : ∀ f g : FileSelection, field (f.merge g) = (field f).or (field g))
    (f g : Option FileSelection) :
    (mergeFiles f g).bind field = (f.bind field).or (g.bind field) := by
  cases f with
  | none => rfl
  | some f =>
    cases g with
    | none => exact Option.or_none.symm
    | some g => exact hField f g

theorem isSome_mergeFiles (f g : Option FileSelection) :
    (mergeFiles f g).isSome = (f.isSome || g.isSome) := by
  cases f with
  | none => rfl
  | some f => cases g <;> rfl

/-! ## Plugins -/

theorem addPlugins_append (xs ys zs : List String) :
    addPlugins xs (ys ++ zs) = addPlugins (addPlugins xs ys) zs := by
  induction ys generalizing xs with
  | nil => rfl
  | cons y ys ih => exact ih _

theorem addPlugins_of_subset (h : ys ⊆ xs) : addPlugins xs ys = xs := by
  induction ys with
  | nil => rfl
  | cons y ys ih =>
    rw [List.cons_subset] at h
    rw [addPlugins, if_pos h.1]
    exact ih h.2

/-- What a list of plugins adds to those that are known: its other members in the order in which
they first stand in it. -/
structure Added (known given added : List String) : Prop where
  mem_iff : ∀ p, p ∈ added ↔ p ∈ given ∧ p ∉ known
  nodup : added.Nodup
  sorted : added.Pairwise fun p q => given.idxOf p < given.idxOf q

theorem Added.nil (known : List String) : Added known [] [] :=
  ⟨fun p => by simp, .nil, .nil⟩

/-- Another plugin in front leaves the others in their order. -/
theorem sorted_cons {given added : List String} {y : String} (hOther : ∀ p ∈ added, y ≠ p)
    (h : added.Pairwise fun p q => given.idxOf p < given.idxOf q) :
    added.Pairwise fun p q => (y :: given).idxOf p < (y :: given).idxOf q := by
  refine h.imp_of_mem fun {p q} hp hq hLt => ?_
  rw [List.idxOf_cons_ne _ (hOther p hp), List.idxOf_cons_ne _ (hOther q hq)]
  exact Nat.succ_lt_succ hLt

theorem Added.skip {known given added : List String} {y : String} (h : Added known given added)
    (hy : y ∈ known) : Added known (y :: given) added where
  mem_iff p := by
    rw [h.mem_iff, List.mem_cons, or_and_right]
    refine (or_iff_right ?_).symm
    rintro ⟨rfl, hp⟩
    exact hp hy
  nodup := h.nodup
  sorted := by
    refine sorted_cons (fun p hp => ?_) h.sorted
    rintro rfl
    exact ((h.mem_iff y).mp hp).2 hy

theorem Added.take {known given added : List String} {y : String}
    (h : Added (known ++ [y]) given added) (hy : y ∉ known) :
    Added known (y :: given) (y :: added) := by
  have hOther (p : String) (hp : p ∈ added) : y ≠ p := by
    rintro rfl
    exact ((h.mem_iff y).mp hp).2 (List.mem_append_right known List.mem_cons_self)
  constructor
  case mem_iff =>
    intro p
    rw [List.mem_cons, List.mem_cons, h.mem_iff, List.mem_append, List.mem_singleton]
    by_cases hp : p = y
    · simp [hp, hy]
    · simp [hp]
  case nodup => exact List.nodup_cons.mpr ⟨fun hp => hOther y hp rfl, h.nodup⟩
  case sorted =>
    refine List.pairwise_cons.mpr ⟨fun p hp => ?_, sorted_cons hOther h.sorted⟩
    rw [List.idxOf_cons_self, List.idxOf_cons_ne _ (hOther p hp)]
    exact Nat.succ_pos _

theorem exists_added (xs ys : List String) :
    ∃ added, addPlugins xs ys = xs ++ added ∧ Added xs ys added := by
  induction ys generalizing xs with
  | nil => exact ⟨[], (List.append_nil xs).symm, .nil xs⟩
  | cons y ys ih =>
    rw [addPlugins]
    split
    · rename_i hy
      obtain ⟨added, hAll, hAdded⟩ := ih xs
      exact ⟨added, hAll, hAdded.skip hy⟩
    · rename_i hy
      obtain ⟨added, hAll, hAdded⟩ := ih (xs ++ [y])
      exact ⟨y :: added, by rw [hAll, List.append_assoc, List.singleton_append], hAdded.take hy⟩

theorem mem_addPlugins_iff : p ∈ addPlugins xs ys ↔ p ∈ xs ∨ p ∈ ys := by
  obtain ⟨added, hAll, hAdded⟩ := exists_added xs ys
  rw [hAll, List.mem_append, hAdded.mem_iff]
  by_cases hp : p ∈ xs
  · simp [hp]
  · simp [hp]

theorem addPlugins_assoc (xs ys zs : List String) :
    addPlugins (addPlugins xs ys) zs = addPlugins xs (addPlugins ys zs) := by
  induction zs generalizing ys with
  | nil => rfl
  | cons z zs ih =>
    rw [addPlugins, addPlugins]
    by_cases hz : z ∈ ys
    · rw [if_pos hz, if_pos (mem_addPlugins_iff.mpr (.inr hz))]
      exact ih ys
    · rw [if_neg hz, ← ih, addPlugins_append]
      rfl

/-! ## Whole configurations -/

/-- What a configuration that is built on another must be: it says what the one says, and in all
else what its parent says. -/
structure BuiltOn (c parent merged : Config) : Prop where
  rules : ∀ id, merged.rules.get? id = (c.rules.get? id).or (parent.rules.get? id)
  env : ∀ name, merged.env.get? name = (c.env.get? name).or (parent.env.get? name)
  dialect : merged.dialect = c.dialect.or parent.dialect
  files : merged.files.isSome = (c.files.isSome || parent.files.isSome)
  included : merged.files.bind (·.included) =
    (c.files.bind (·.included)).or (parent.files.bind (·.included))
  excluded : merged.files.bind (·.excluded) =
    (c.files.bind (·.excluded)).or (parent.files.bind (·.excluded))
  extensions : merged.files.bind (·.extensions) =
    (c.files.bind (·.extensions)).or (parent.files.bind (·.extensions))
  plugins : ∃ added, merged.plugins = c.plugins ++ added ∧ Added c.plugins parent.plugins added
  parent : merged.parent = c.parent

theorem builtOn_merge (c parent : Config) : BuiltOn c parent (c.merge parent) where
  rules := NameMap.get?_orElse _ _
  env := NameMap.get?_orElse _ _
  dialect := by rw [merge, Option.orElse_eq_orElse, Option.orElse_eq_or]
  files := isSome_mergeFiles _ _
  included := bind_mergeFiles _ (fun f g => by rw [f.merge_eq]) _ _
  excluded := bind_mergeFiles _ (fun f g => by rw [f.merge_eq]) _ _
  extensions := bind_mergeFiles _ (fun f g => by rw [f.merge_eq]) _ _
  plugins := exists_added _ _
  parent := rfl

theorem merge_assoc (a b c : Config) : (a.merge b).merge c = a.merge (b.merge c) := by
  simp only [merge, NameMap.orElse_assoc, addPlugins_assoc, mergeFiles_assoc,
    Option.orElse_eq_orElse, Option.orElse_eq_or, Option.or_assoc]

theorem merge_self (c : Config) : c.merge c = c := by
  rw [merge, NameMap.orElse_self, NameMap.orElse_self, mergeFiles_self,
    addPlugins_of_subset (List.Subset.refl _), Option.orElse_eq_orElse, Option.orElse_eq_or,
    Option.or_self]

theorem merge_empty (c : Config) : c.merge {} = c := by
  rw [merge, NameMap.orElse_empty, NameMap.orElse_empty, mergeFiles_none, Option.orElse_eq_orElse,
    Option.orElse_eq_or, Option.or_none]
  rfl

end Config

/-- Merging is associative, and merging a parent again, or what is there already, or nothing,
changes nothing. The merged configuration keeps all that the one says, takes over all that only its
parent says, and keeps the name of its own parent. -/
theorem merging_band (a b c : Config) :
    (a.merge b).merge c = a.merge (b.merge c) ∧
    (a.merge b).merge b = a.merge b ∧
    a.merge a = a ∧
    a.merge {} = a ∧
    Config.BuiltOn a b (a.merge b) := by
  refine ⟨a.merge_assoc b c, ?_, a.merge_self, a.merge_empty, Config.builtOn_merge a b⟩
  rw [Config.merge_assoc, Config.merge_self]

end RuleScout
