import Mathlib.Data.List.Lex
import Mathlib.Order.Interval.Set.Basic
import RuleScout.Proofs.CandidateList

/-!
# The objects tried for a position

The objects for a position are all combinations of the values of its listed properties. The
combination at an index is read off the digits of the index, when the numbers of values are taken
for the bases of its places.
-/

set_option autoImplicit false

namespace RuleScout

/-! ## Numbers with a base for each place -/

/-- The digits of a number, one for each base. The last place counts ones. -/
def digits : List Nat → Nat → List Nat
  | [], _ => []
  | n :: ns, i => i / ns.prod % n :: digits ns i

section Digits

variable {ns choice : List Nat} {i k : Nat}

theorem digits_mod (ns : List Nat) (i : Nat) : digits ns (i % ns.prod) = digits ns i := by
  induction ns generalizing i with
  | nil => rfl
  | cons n ns ih =>
    rw [digits, digits, List.prod_cons, Nat.mod_mul_left_div_self, Nat.mod_mod, ← ih (i % _),
      Nat.mod_mul_left_mod, ih]

/-- Numbers are ordered like their digits, the first place before the others. -/
theorem strictMonoOn_digits (ns : List Nat) : StrictMonoOn (digits ns) (Set.Iio ns.prod) := by
  induction ns with
  | nil =>
    intro i _ k hk hLt
    rw [Set.mem_Iio, List.prod_nil] at hk
    omega
  | cons n ns ih =>
    intro i hi k hk hLt
    rw [Set.mem_Iio, List.prod_cons, Nat.mul_comm] at hi hk
    have hPos : 0 < ns.prod := Nat.pos_of_mul_pos_right (Nat.zero_lt_of_lt hi)
    rw [digits, digits, List.cons_lt_cons_iff, Nat.mod_eq_of_lt (Nat.div_lt_of_lt_mul hi),
      Nat.mod_eq_of_lt (Nat.div_lt_of_lt_mul hk)]
    rcases Nat.lt_or_eq_of_le (Nat.div_le_div_right (c := ns.prod) hLt.le) with hHead | hHead
    · exact .inl hHead
    · -- with the same first digit the order is decided by what is left over
      refine .inr ⟨hHead, ?_⟩
      rw [← digits_mod ns i, ← digits_mod ns k]
      apply ih (Nat.mod_lt _ hPos) (Nat.mod_lt _ hPos)
      have hSplit := Nat.div_add_mod i ns.prod
      have hSplit' := Nat.div_add_mod k ns.prod
      rw [hHead] at hSplit
      omega

theorem exists_digits (h : List.Forall₂ (· < ·) choice ns) :
    ∃ i < ns.prod, digits ns i = choice := by
  induction h with
  | nil => exact ⟨0, Nat.one_pos, rfl⟩
  | @cons d n choice ns hDigit _ ih =>
    obtain ⟨r, hr, hRest⟩ := ih
    have hPos : 0 < ns.prod := Nat.zero_lt_of_lt hr
    have hHead : (ns.prod * d + r) / ns.prod = d := by
      rw [Nat.mul_add_div hPos, Nat.div_eq_of_lt hr, Nat.add_zero]
    have hTail : (ns.prod * d + r) % ns.prod = r := by
      rw [Nat.mul_add_mod, Nat.mod_eq_of_lt hr]
    refine ⟨ns.prod * d + r, ?_, ?_⟩
    · calc
        ns.prod * d + r < ns.prod * (d + 1) := Nat.add_lt_add_left hr _
        _ ≤ ns.prod * n := Nat.mul_le_mul_left _ hDigit
        _ = (n :: ns).prod := by rw [List.prod_cons, Nat.mul_comm]
    · rw [digits, hHead, Nat.mod_eq_of_lt hDigit, ← digits_mod, hTail, hRest]

theorem existsUnique_digits (h : List.Forall₂ (· < ·) choice ns) :
    ∃! i, i < ns.prod ∧ digits ns i = choice := by
  obtain ⟨i, hi, hDigits⟩ := exists_digits h
  refine ⟨i, ⟨hi, hDigits⟩, fun k ⟨hk, hOther⟩ => ?_⟩
  exact (strictMonoOn_digits ns).injOn hk hi (hOther.trans hDigits.symm)

end Digits

/-! ## Picking values -/

/-- The names of properties with a value for each, chosen by the digits of a number. -/
def pick : List (String × List Value) → Nat → Option (List (String × Value))
  | [], _ => some []
  | (name, values) :: listed, i =>
    values[i / (listed.map (·.2.length)).prod % values.length]?.bind fun v =>
      (pick listed i).map ((name, v) :: ·)

section Pick

variable {listed : List (String × List Value)} {fields : List (String × Value)} {i : Nat}

theorem exists_pick (hValues : ∀ p ∈ listed, p.2 ≠ []) (i : Nat) :
    ∃ fields, pick listed i = some fields := by
  induction listed with
  | nil => exact ⟨[], rfl⟩
  | cons p listed ih =>
    obtain ⟨name, values⟩ := p
    obtain ⟨hHere, hRest⟩ := List.forall_mem_cons.mp hValues
    obtain ⟨fields, hFields⟩ := ih hRest
    have hInside : i / (listed.map (·.2.length)).prod % values.length < values.length :=
      Nat.mod_lt _ (List.length_pos_iff.mpr hHere)
    rw [pick, List.getElem?_eq_getElem hInside, hFields]
    exact ⟨_, rfl⟩

theorem names_pick (h : pick listed i = some fields) :
    fields.map (·.1) = listed.map (·.1) := by
  induction listed generalizing fields with
  | nil =>
    cases h
    rfl
  | cons p listed ih =>
    obtain ⟨v, -, h⟩ := Option.bind_eq_some_iff.mp h
    obtain ⟨rest, hRest, rfl⟩ := Option.map_eq_some_iff.mp h
    rw [List.map_cons, List.map_cons, ih hRest]

theorem getElem?_pick (h : pick listed i = some fields) {j : Nat} {name : String}
    {values : List Value} (hj : listed[j]? = some (name, values)) :
    ∃ v, values[i / ((listed.map (·.2.length)).drop (j + 1)).prod % values.length]? = some v ∧
      fields[j]? = some (name, v) := by
  induction listed generalizing fields j with
  | nil => cases hj
  | cons p listed ih =>
    obtain ⟨v, hv, h⟩ := Option.bind_eq_some_iff.mp h
    obtain ⟨rest, hRest, rfl⟩ := Option.map_eq_some_iff.mp h
    cases j with
    | zero =>
      cases hj
      exact ⟨v, hv, rfl⟩
    | succ j => exact ih hRest hj

/-- Every combination of values is picked. -/
theorem exists_pick_eq (h : List.Forall₂ (fun f p => f.1 = p.1 ∧ f.2 ∈ p.2) fields listed) :
    ∃ i < (listed.map (·.2.length)).prod, pick listed i = some fields := by
  suffices hChoice : ∃ choice, List.Forall₂ (· < ·) choice (listed.map (·.2.length)) ∧
      ∀ i, digits (listed.map (·.2.length)) i = choice → pick listed i = some fields by
    obtain ⟨choice, hBelow, hPick⟩ := hChoice
    obtain ⟨i, hi, hDigits⟩ := exists_digits hBelow
    exact ⟨i, hi, hPick i hDigits⟩
  induction h with
  | nil => exact ⟨[], .nil, fun _ _ => rfl⟩
  | @cons f p fields listed hHere _ ih =>
    obtain ⟨name, v⟩ := f
    obtain ⟨_, values⟩ := p
    obtain ⟨rfl, hv⟩ := hHere
    obtain ⟨choice, hBelow, hPick⟩ := ih
    obtain ⟨d, hd⟩ := List.mem_iff_getElem?.mp hv
    refine ⟨d :: choice, .cons (List.getElem?_eq_some_iff.mp hd).1 hBelow, fun i hDigits => ?_⟩
    obtain ⟨hHead, hRest⟩ := List.cons.inj hDigits
    rw [pick, hHead, hd, hPick i hRest]
    rfl

theorem forall₂_of_pick (h : pick listed i = some fields) :
    List.Forall₂ (fun f p => f.1 = p.1 ∧ f.2 ∈ p.2) fields listed := by
  induction listed generalizing fields with
  | nil =>
    cases h
    exact .nil
  | cons p listed ih =>
    obtain ⟨v, hv, h⟩ := Option.bind_eq_some_iff.mp h
    obtain ⟨rest, hRest, rfl⟩ := Option.map_eq_some_iff.mp h
    exact .cons ⟨rfl, List.mem_of_getElem? hv⟩ (ih hRest)

/-- With distinct values for each property, what is picked tells the digits. -/
theorem digits_of_pick {k : Nat} (hDistinct : ∀ p ∈ listed, p.2.Nodup)
    (h : pick listed i = some fields) (hk : pick listed k = some fields) :
    digits (listed.map (·.2.length)) i = digits (listed.map (·.2.length)) k := by
  induction listed generalizing fields with
  | nil => rfl
  | cons p listed ih =>
    obtain ⟨hNodup, hDistinct⟩ := List.forall_mem_cons.mp hDistinct
    obtain ⟨v, hv, h⟩ := Option.bind_eq_some_iff.mp h
    obtain ⟨rest, hRest, rfl⟩ := Option.map_eq_some_iff.mp h
    obtain ⟨w, hw, hk⟩ := Option.bind_eq_some_iff.mp hk
    obtain ⟨_, hRest', hSame⟩ := Option.map_eq_some_iff.mp hk
    cases hSame
    rw [List.map_cons, digits, digits, ih hDistinct hRest hRest']
    have hInside := (List.getElem?_eq_some_iff.mp hv).1
    have hDigit := (List.getElem?_inj hInside hNodup).mp (hv.trans hw.symm)
    exact congrArg (· :: _) hDigit

end Pick

/-! ## The product -/

/-- Where all lists are made from one list, an index tells the place in that list and the element
it belongs to. -/
theorem getElem?_flatMap_map {α β γ : Type} (f : α → β → γ) (xs : List α) (ys : List β) (k : Nat) :
    (xs.flatMap fun x => ys.map (f x))[k]? =
      xs[k / ys.length]?.bind fun x => ys[k % ys.length]?.map (f x) := by
  induction xs generalizing k with
  | nil => rfl
  | cons x xs ih =>
    rw [List.flatMap_cons]
    rcases Nat.lt_or_ge k ys.length with hk | hk
    · rw [List.getElem?_append_left (by rwa [List.length_map]), List.getElem?_map,
        Nat.div_eq_of_lt hk, Nat.mod_eq_of_lt hk]
      rfl
    · rw [List.getElem?_append_right (by rwa [List.length_map]), List.length_map, ih]
      rcases Nat.eq_zero_or_pos ys.length with hEmpty | hPos
      · rw [List.length_eq_zero_iff.mp hEmpty]
        simp
      · rw [Nat.div_eq_sub_div hPos hk, ← Nat.mod_eq_sub_mod hk]
        rfl

theorem putField_of_fresh {fields : List (String × Value)} {name : String}
    (h : name ∉ fields.map (·.1)) (v : Value) :
    Value.putField fields name v = fields ++ [(name, v)] := by
  have hNone : (fields.any (·.1 = name)) = false := by
    rw [List.any_eq_false]
    intro f hf hName
    exact h (List.mem_map.mpr ⟨f, hf, of_decide_eq_true hName⟩)
  rw [Value.putField, hNone, if_neg Bool.false_ne_true]

theorem getElem?_foldl_extendObjects (listed : List (String × List Value))
    (hDistinct : (listed.map (·.1)).Nodup) (objects : List (List (String × Value)))
    (hFresh : ∀ base ∈ objects, ∀ p ∈ listed, p.1 ∉ base.map (·.1)) (i : Nat) :
    (listed.foldl (fun objects (name, values) => extendObjects objects name values) objects)[i]? =
      objects[i / (listed.map (·.2.length)).prod]?.bind fun base =>
        (pick listed i).map (base ++ ·) := by
  induction listed generalizing objects with
  | nil =>
    rw [List.foldl_nil, List.map_nil, List.prod_nil, Nat.div_one]
    simp [pick]
  | cons p listed ih =>
    obtain ⟨name, values⟩ := p
    obtain ⟨hName, hDistinct⟩ := List.nodup_cons.mp hDistinct
    have hNext : ∀ next ∈ extendObjects objects name values, ∀ p ∈ listed,
        p.1 ∉ next.map (·.1) := by
      intro next hNext p hp hMem
      obtain ⟨base, hBase, hNext⟩ := List.mem_flatMap.mp hNext
      obtain ⟨v, -, rfl⟩ := List.mem_map.mp hNext
      obtain ⟨hHere, hRest⟩ := List.forall_mem_cons.mp (hFresh base hBase)
      rw [putField_of_fresh hHere, List.map_append, List.mem_append] at hMem
      rcases hMem with hOld | hNew
      · exact hRest p hp hOld
      · exact hName (List.mem_singleton.mp hNew ▸ List.mem_map_of_mem hp)
    rw [List.foldl_cons, ih hDistinct _ hNext, extendObjects, getElem?_flatMap_map,
      Nat.div_div_eq_div_mul, List.map_cons, List.prod_cons, Nat.mul_comm values.length]
    cases hBase : objects[i / ((listed.map (·.2.length)).prod * values.length)]? with
    | none => rfl
    | some base =>
      have hHere := hFresh base (List.mem_of_getElem? hBase) _ List.mem_cons_self
      rw [Option.bind_some, Option.bind_some, pick]
      cases values[i / (listed.map (·.2.length)).prod % values.length]? with
      | none => rfl
      | some v =>
        rw [Option.map_some, Option.bind_some, Option.bind_some, putField_of_fresh hHere,
          Option.map_map]
        simp [Function.comp_def]

theorem map_fst_listedProperties (properties : List PropertySchema) :
    (listedProperties properties).map (·.1) =
      (properties.filter (·.candidateValues.isSome)).map (·.name) := by
  induction properties with
  | nil => rfl
  | cons p properties ih =>
    rw [listedProperties, List.filterMap_cons]
    cases hValues : p.candidateValues with
    | none =>
      rw [List.filter_cons_of_neg (by simp [hValues]), ← ih]
      rfl
    | some values =>
      rw [List.filter_cons_of_pos (by simp [hValues]), List.map_cons, ← ih]
      rfl

theorem nodup_listedProperties {properties : List PropertySchema}
    (hNames : (properties.map (·.name)).Nodup) :
    ((listedProperties properties).map (·.1)).Nodup := by
  rw [map_fst_listedProperties]
  exact hNames.sublist (List.filter_sublist.map _)

theorem objectValues_eq_none_iff (properties : List PropertySchema) :
    objectValues properties = none ↔ ∀ p ∈ properties, p.candidateValues = none := by
  have hNone : objectValues properties = none ↔ listedProperties properties = [] := by
    rw [objectValues]
    split
    · rename_i hListed
      simp [hListed]
    · rename_i hListed
      simpa using hListed
  rw [hNone, listedProperties, List.filterMap_eq_nil_iff]
  simp only [Option.map_eq_none_iff]

/-- All combinations of values, one for each property. They stand in the order of their digits, so
the values of earlier properties change more slowly. -/
structure IsProduct (listed : List (String × List Value)) (objects : List Value) : Prop where
  length : objects.length = (listed.map (·.2.length)).prod
  at_index : ∀ i < objects.length, ∃ fields, objects[i]? = some (.object fields) ∧
    fields.map (·.1) = listed.map (·.1) ∧
    ∀ j name values, listed[j]? = some (name, values) →
      ∃ v, values[i / ((listed.map (·.2.length)).drop (j + 1)).prod % values.length]? = some v ∧
        fields[j]? = some (name, v)
  mem_iff : ∀ fields, .object fields ∈ objects ↔
    List.Forall₂ (fun f p => f.1 = p.1 ∧ f.2 ∈ p.2) fields listed
  once : ∀ choice, List.Forall₂ (· < ·) choice (listed.map (·.2.length)) →
    ∃! i, i < objects.length ∧ digits (listed.map (·.2.length)) i = choice
  sorted : ∀ i k, i < objects.length → k < objects.length →
    (i < k ↔ digits (listed.map (·.2.length)) i < digits (listed.map (·.2.length)) k)
  nodup : (∀ p ∈ listed, p.2.Nodup) → objects.Nodup

/-- A list with the length of the product that holds at each index what is picked there. -/
theorem isProduct_of_picked {listed : List (String × List Value)} {objects : List Value}
    (hValues : ∀ p ∈ listed, p.2 ≠ [])
    (hLength : objects.length = (listed.map (·.2.length)).prod)
    (hPicked : ∀ i < objects.length, objects[i]? = (pick listed i).map .object) :
    IsProduct listed objects where
  length := hLength
  at_index i hi := by
    obtain ⟨fields, hFields⟩ := exists_pick hValues i
    refine ⟨fields, ?_, names_pick hFields, fun j name values => getElem?_pick hFields⟩
    rw [hPicked i hi, hFields, Option.map_some]
  mem_iff fields := by
    constructor
    · intro hMem
      obtain ⟨i, hAt⟩ := List.mem_iff_getElem?.mp hMem
      rw [hPicked i (List.getElem?_eq_some_iff.mp hAt).1, Option.map_eq_some_iff] at hAt
      obtain ⟨_, hFields, hSame⟩ := hAt
      cases hSame
      exact forall₂_of_pick hFields
    · intro hFields
      obtain ⟨i, hi, hPick⟩ := exists_pick_eq hFields
      apply List.mem_of_getElem? (i := i)
      rw [hPicked i (hLength ▸ hi), hPick, Option.map_some]
  once choice hChoice := hLength ▸ existsUnique_digits hChoice
  sorted i k hi hk :=
    ((strictMonoOn_digits _).lt_iff_lt (Set.mem_Iio.mpr (hLength ▸ hi))
      (Set.mem_Iio.mpr (hLength ▸ hk))).symm
  nodup hDistinct := by
    rw [List.nodup_iff_getElem?_ne_getElem?]
    intro i k hLt hk hSame
    have hi := hLt.trans hk
    obtain ⟨fields, hFields⟩ := exists_pick hValues i
    obtain ⟨fields', hFields'⟩ := exists_pick hValues k
    rw [hPicked i hi, hPicked k hk, hFields, hFields', Option.map_some, Option.map_some,
      Option.some.injEq, Value.object.injEq] at hSame
    subst hSame
    have hDigits := digits_of_pick hDistinct hFields hFields'
    have hIndex := (strictMonoOn_digits _).injOn (Set.mem_Iio.mpr (hLength ▸ hi))
      (Set.mem_Iio.mpr (hLength ▸ hk)) hDigits
    exact Nat.ne_of_lt hLt hIndex

/-- Objects are tried for a position exactly if one of its properties can be listed, and then they
are the product of the values of those that can. -/
theorem objectValues_product (properties : List PropertySchema)
    (hNames : (properties.map (·.name)).Nodup) :
    (objectValues properties = none ↔ ∀ p ∈ properties, p.candidateValues = none) ∧
    ∀ objects, objectValues properties = some objects →
      IsProduct (properties.filterMap fun p => p.candidateValues.map (p.name, ·)) objects := by
  refine ⟨objectValues_eq_none_iff properties, fun objects hObjects => ?_⟩
  rw [← listedProperties]
  rw [objectValues] at hObjects
  split at hObjects
  · cases hObjects
  · cases hObjects
    have hCount := length_foldl_extendObjects (listedProperties properties) [[]]
    rw [List.length_singleton, Nat.one_mul] at hCount
    refine isProduct_of_picked listedProperties_ne_nil (by rw [List.length_map, hCount]) ?_
    intro i hi
    rw [List.length_map, hCount] at hi
    have hAt := getElem?_foldl_extendObjects (listedProperties properties)
      (nodup_listedProperties hNames) [[]] (by simp) i
    rw [List.getElem?_map, hAt, Nat.div_eq_of_lt hi]
    simp

theorem objectValues_product_modes :
    let properties : List PropertySchema :=
      [⟨"mode", .enumeration [.string "a", .string "b"]⟩, ⟨"ignore", .anything⟩,
        ⟨"strict", .boolean⟩]
    let objects : List Value :=
      [.object [("mode", .string "a"), ("strict", .bool true)],
        .object [("mode", .string "a"), ("strict", .bool false)],
        .object [("mode", .string "b"), ("strict", .bool true)],
        .object [("mode", .string "b"), ("strict", .bool false)]]
    (properties.map (·.name)).Nodup ∧ objectValues properties = some objects ∧
      IsProduct [("mode", [.string "a", .string "b"]), ("strict", [.bool true, .bool false])]
        objects := by
  intro properties objects
  have hNames : (properties.map (·.name)).Nodup := by decide
  have hObjects : objectValues properties = some objects := by rfl
  exact ⟨hNames, hObjects, (objectValues_product properties hNames).2 objects hObjects⟩

end RuleScout
