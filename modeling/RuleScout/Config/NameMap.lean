/-!
# Tables kept in the order of their names

A `NameMap` holds at most one entry for a name and keeps its entries in the order of the names,
so two tables with the same contents are the same table.
-/

set_option autoImplicit false

namespace RuleScout

structure NameMap (α : Type) where
  entries : List (String × α)
  sorted : entries.Pairwise fun a b => a.1 < b.1

namespace NameMap

variable {α β : Type}

instance [DecidableEq α] : DecidableEq (NameMap α) := fun a b =>
  decidable_of_iff (a.entries = b.entries)
    ⟨fun h => by cases a; cases b; cases h; rfl, fun h => h ▸ rfl⟩

def empty : NameMap α := ⟨[], .nil⟩

instance : Inhabited (NameMap α) := ⟨empty⟩

def names (m : NameMap α) : List String := m.entries.map (·.1)

def isEmpty (m : NameMap α) : Bool := m.entries.isEmpty

def size (m : NameMap α) : Nat := m.entries.length

def get? (m : NameMap α) (name : String) : Option α := m.entries.lookup name

def contains (m : NameMap α) (name : String) : Bool := (m.get? name).isSome

def insertInto (name : String) (a : α) : List (String × α) → List (String × α)
  | [] => [(name, a)]
  | (other, b) :: rest =>
    if name < other then (name, a) :: (other, b) :: rest
    else if name = other then (name, a) :: rest
    else (other, b) :: insertInto name a rest

theorem mem_insertInto {name : String} {a : α} {l : List (String × α)} {x : String × α}
    (h : x ∈ insertInto name a l) : x = (name, a) ∨ x ∈ l := by
  induction l with
  | nil => simpa [insertInto] using h
  | cons y rest ih =>
    obtain ⟨other, b⟩ := y
    simp only [insertInto] at h
    split at h
    · simpa using h
    · split at h
      · rcases List.mem_cons.1 h with h | h
        · exact .inl h
        · exact .inr (List.mem_cons_of_mem _ h)
      · rcases List.mem_cons.1 h with h | h
        · exact .inr (h ▸ List.mem_cons_self)
        · rcases ih h with h | h
          · exact .inl h
          · exact .inr (List.mem_cons_of_mem _ h)

theorem sorted_insertInto {name : String} {a : α} {l : List (String × α)}
    (h : l.Pairwise fun x y => x.1 < y.1) :
    (insertInto name a l).Pairwise fun x y => x.1 < y.1 := by
  induction l with
  | nil => simp [insertInto]
  | cons y rest ih =>
    obtain ⟨other, b⟩ := y
    obtain ⟨below, tail⟩ := List.pairwise_cons.1 h
    simp only [insertInto]
    split
    · rename_i lt
      refine List.pairwise_cons.2 ⟨fun x hx => ?_, h⟩
      rcases List.mem_cons.1 hx with rfl | hx
      · exact lt
      · exact String.lt_trans lt (below x hx)
    · split
      · rename_i eq
        exact List.pairwise_cons.2 ⟨fun x hx => eq ▸ below x hx, tail⟩
      · rename_i notLt notEq
        refine List.pairwise_cons.2 ⟨fun x hx => ?_, ih tail⟩
        rcases mem_insertInto hx with rfl | hx
        · exact Std.lt_of_le_of_ne (String.not_lt.1 notLt) (Ne.symm notEq)
        · exact below x hx

def insert (m : NameMap α) (name : String) (a : α) : NameMap α :=
  ⟨insertInto name a m.entries, sorted_insertInto m.sorted⟩

def insertNew (m : NameMap α) (name : String) (a : α) : NameMap α :=
  if m.contains name then m else m.insert name a

def ofList (l : List (String × α)) : NameMap α := l.foldl (fun m (k, a) => m.insert k a) empty

/-- The entries of `m`, and those of `other` whose names `m` does not have. -/
def orElse (m other : NameMap α) : NameMap α :=
  other.entries.foldl (fun m (k, a) => m.insertNew k a) m

def filter (m : NameMap α) (p : String → α → Bool) : NameMap α :=
  ⟨m.entries.filter fun (k, a) => p k a, m.sorted.filter _⟩

end NameMap

end RuleScout
