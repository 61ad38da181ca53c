import RuleScout.Proofs.Declarations
import RuleScout.Proofs.TokenOrder

/-!
# Names that are collected once

Every declaring keyword starts a walk of its own, so a name is collected twice when one walk runs
into what another one collects. There are three ways in which it can: a declaration goes on over a
later one of its scope and finds a comma behind that one, an import does not end before the next
declaration or in the bracket around it, or a declaration stands in a pattern outside of default
values. If none of them happens, every name is collected once, and no two findings are at one place.
-/

set_option autoImplicit false

namespace RuleScout.UnusedNames

open Code

/-! ## Walks that run into each other -/

def declares (c : Code) (p : Nat) : Bool := bindingsAt c p ≠ []

def declaresVariables (c : Code) (p : Nat) : Bool := isVariable c p && declares c p

def declaresImports (c : Code) (p : Nat) : Bool := c.isKeyword p "import" && declares c p

/-- The declaration at `p` goes on over the one at `q`, of the same scope, up to a comma. -/
def Overruns (c : Code) (p q comma : Nat) : Prop :=
  declaresVariables c p = true ∧ (declaresVariables c q || declaresImports c q) = true ∧
    c.parent q = c.parent p ∧ c.isPunct comma "," = true ∧ Reaches c p comma

/-- The import at `p` goes on over the declaration at `r`, or over the end of its scope there. -/
def Escapes (c : Code) (p r : Nat) : Prop :=
  declaresImports c p = true ∧
    (declares c r = true ∨ (c.parent p).bind c.matching = some r) ∧
    ∀ n < r, p < n → endsImport c (c.parent p) n = false

/-- The bracket at `o` belongs to a default value. -/
def InDefault (c : Code) (o : Nat) : Prop :=
  ∃ e < o, c.isPunct e "=" = true ∧ c.parent e = c.parent o ∧
    ∀ n < o, e < n → c.parent n = c.parent o → c.isPunct n "," = false

/-- The declaration at `q` stands in the pattern behind `n`, in no bracket of a default value. -/
def Intrudes (c : Code) (n q : Nat) : Prop :=
  declares c q = true ∧ n + 1 ∈ c.brackets.ancestors q ∧
    (∃ p ≤ n, declaresVariables c p = true ∧ Introduces c p n) ∧
    ∀ o ∈ c.brackets.ancestors q, n + 1 < o → ¬InDefault c o

instance (c : Code) (p q comma : Nat) : Decidable (Overruns c p q comma) :=
  inferInstanceAs (Decidable (_ ∧ _))

instance (c : Code) (p r : Nat) : Decidable (Escapes c p r) :=
  inferInstanceAs (Decidable (_ ∧ _))

instance (c : Code) (o : Nat) : Decidable (InDefault c o) :=
  inferInstanceAs (Decidable (∃ e < o, _ ∧ _))

instance (c : Code) (n q : Nat) : Decidable (Intrudes c n q) :=
  inferInstanceAs (Decidable (_ ∧ _))

structure Parted (c : Code) : Prop where
  overruns : ∀ comma < c.size, ∀ q < comma, ∀ p < q, ¬Overruns c p q comma
  escapes : ∀ r < c.size, ∀ p < r, ¬Escapes c p r
  intrudes : ∀ q < c.size, ∀ n < q, ¬Intrudes c n q

instance (c : Code) : Decidable (Parted c) :=
  decidable_of_iff
    ((∀ comma < c.size, ∀ q < comma, ∀ p < q, ¬Overruns c p q comma) ∧
      (∀ r < c.size, ∀ p < r, ¬Escapes c p r) ∧ ∀ q < c.size, ∀ n < q, ¬Intrudes c n q)
    ⟨fun h => ⟨h.1, h.2.1, h.2.2⟩, fun h => ⟨h.overruns, h.escapes, h.intrudes⟩⟩

variable {c : Code} {p q n t k d o e : Nat} {b x y : Binding}

/-! ## Where a name stands -/

theorem declares_of_mem (h : b ∈ bindingsAt c p) : declares c p = true := by
  simpa [declares] using List.ne_nil_of_mem h

theorem declaresVariables_of_mem (hVariable : isVariable c p = true) (h : b ∈ bindingsAt c p) :
    declaresVariables c p = true := by
  simp [declaresVariables, hVariable, declares_of_mem h]

theorem declaresImports_of_mem (hImport : c.isKeyword p "import" = true)
    (h : b ∈ bindingsAt c p) : declaresImports c p = true := by
  simp [declaresImports, hImport, declares_of_mem h]

theorem Names.le (h : Names c t b) : t ≤ b.position := by
  cases h with
  | name hName hPosition => exact hPosition.ge
  | pattern hPair hRead => exact Nat.le_of_succ_le ((listed_patternBindings hPair.lt).range b hRead).1

/-- A declarator does not start with a closing bracket. -/
theorem Names.not_closer (hFits : c.Fits) (h : Names c t b) (o : Nat) : ¬c.Pair o t := by
  intro hPair
  cases h with
  | name hName hPosition =>
    have hNone := hFits.matching_of_isKind hName (by decide)
    exact (hFits.ne_of_matching_eq_none hPair hNone).2 rfl
  | pattern hOwn hRead => exact hFits.opener_ne_closer hOwn hPair rfl

theorem Origin.lt (h : Origin c p b) : p < b.position := by
  cases h with
  | declarator hVariable hStart hReached hNames => exact Nat.lt_of_lt_of_le hReached.lt hNames.le
  | definition hDefinition hName hPosition => omega
  | imported hImport hLt hName hGoesOn => exact hLt

theorem Origin.keyword (h : Origin c p b) : c.isKind p .keyword = true := by
  cases h with
  | declarator hVariable hStart hReached hNames => exact isKind_of_isKeywordOf hVariable
  | definition hDefinition hName hPosition => exact isKind_of_isKeywordOf hDefinition
  | imported hImport hLt hName hGoesOn => exact isKind_of_isKeyword hImport

section Apart

variable (hFits : c.Fits) (hParted : Parted c)
include hFits hParted

/-! ## A declaration keeps inside the brackets around it -/

theorem position_lt_closer (hb : b ∈ bindingsAt c q) (hPair : c.Pair o d) (hoq : o < q)
    (hqd : q < d) : b.position < d := by
  cases (originates_bindingsAt hFits q).1 b hb with
  | @declarator n hVariable hStart hReached hNames =>
    obtain ⟨hInner, hBefore⟩ := hFits.inside_of_parent_eq hReached.parent hPair hoq hqd
    cases hNames with
    | name hName hPosition => omega
    | @pattern k hOwn hRead =>
      have hNested := hFits.not_cross hPair hOwn hInner hBefore
      have hRange := (listed_patternBindings hOwn.lt).range b hRead
      omega
  | definition hDefinition hName hPosition =>
    have hNone := hFits.matching_of_isKind hName (by decide)
    have hSides := hFits.ne_of_matching_eq_none hPair hNone
    omega
  | imported hImport hLt hName hGoesOn =>
    obtain ⟨s, r, hParent, hScope, -, hsq, hqr, hrd⟩ := hFits.exists_parent hPair hoq hqd
    obtain ⟨a, -, hClosing⟩ := hFits.sort hScope
    have hEnds := hParted.escapes r (lt_size_of_isPunct hClosing) q hqr
    have hBound : (c.parent q).bind c.matching = some r := by
      rw [hParent, Option.bind_some, hScope.matching]
    by_contra hBeyond
    exact hEnds ⟨declaresImports_of_mem hImport hb, .inr hBound,
      fun n hnr hqn => hGoesOn n (by omega) hqn⟩

/-! ## A declaration that another one goes on over -/

/-- What is declared between a declaration and one of its declarators stands in front of that
declarator. -/
theorem position_lt_declarator (hp : declaresVariables c p = true) (hStart : Introduces c p n)
    (hReached : Reaches c p (n + 1)) (hNames : Names c (n + 1) x) (hpq : p < q) (hqn : q ≤ n)
    (hy : y ∈ bindingsAt c q) : y.position < n + 1 := by
  have hOrigin := (originates_bindingsAt hFits q).1 y hy
  obtain ⟨hComma, hComing⟩ := hStart.resolve_left (by omega)
  have hNe : q ≠ n := by
    rintro rfl
    rw [isPunct_of_isKind hOrigin.keyword (by decide)] at hComma
    cases hComma
  rcases hFits.parent_eq_or_exists_pair hReached.parent.symm hpq (Nat.lt_succ_of_le hqn)
    (hNames.not_closer hFits) with hParent | ⟨o, d, hPair, hoq, hqd, hdn⟩
  · -- in the same scope only a function or a class may be gone over
    have hNot : (declaresVariables c q || declaresImports c q) ≠ true := fun hq =>
      hParted.overruns n (lt_size_of_isPunct hComma) q (by omega) p hpq
        ⟨hp, hq, hParent, hComma, hComing⟩
    cases hOrigin with
    | declarator hVariable => simp [declaresVariables_of_mem hVariable hy] at hNot
    | definition hDefinition hName hPosition => omega
    | imported hImport => simp [declaresImports_of_mem hImport hy] at hNot
  · have hInside := position_lt_closer hFits hParted hy hPair hoq hqd
    omega

end Apart

/-! ## A declaration in a default value -/

theorem mem_readOver {state : PatternState} (hpq : p ≤ q) (h : x ∈ (readOver c state p q).bound) :
    x ∈ state.bound ∨ p ≤ x.position := by
  induction q, hpq using Nat.le_induction with
  | base =>
    rw [readOver_self] at h
    exact .inl h
  | succ q hpq ih =>
    rw [readOver_succ hpq, readPattern] at h
    split at h
    · split at h <;> exact ih h
    · split at h
      · exact ih h
      · split at h
        · rcases List.mem_cons.mp h with rfl | h
          · exact .inr hpq
          · exact ih h
        · exact ih h

/-- At an equals sign a default value begins, unless one is skipped already that goes on beyond the
bracket around the sign. -/
theorem skips_from_assign (hFits : c.Fits) (hPair : c.Pair t k) (hOuter : c.Pair p q)
    (htp : t ≤ p) (hqk : q ≤ k) (hParent : c.parent e = some p) (hAssign : c.isPunct e "=" = true) :
    ∃ own r acc, readOver c ⟨none, []⟩ (t + 1) (e + 1) = ⟨some (some own), acc⟩ ∧ c.Pair own r ∧
      own ≤ p ∧ q ≤ r := by
  obtain ⟨⟨q', hOuter', hpe, heq⟩, hLast⟩ := hFits.parent_eq_some_iff.mp hParent
  obtain rfl := hOuter.closer_unique hOuter'
  have hPending := pending_readOver [] hFits hPair (Nat.lt_of_le_of_lt htp hpe) (by omega)
  rw [readOver_succ (Nat.lt_of_le_of_lt htp hpe)]
  cases hState : readOver c ⟨none, []⟩ (t + 1) e with
  | mk pending acc =>
    rw [hState] at hPending
    cases pending with
    | none =>
      refine ⟨p, q, acc, ?_, hOuter, Nat.le_refl p, Nat.le_refl q⟩
      rw [readPattern_assign hAssign, hParent]
    | some scope =>
      obtain ⟨own, r, rfl, hOwn, -, hBefore, hBehind⟩ := hPending scope rfl
      have hNone := hFits.matching_of_isPunct hAssign (by decide)
      have hSides := hFits.ne_of_matching_eq_none hOwn hNone
      have hLe := hLast own r hOwn hBefore (by omega)
      refine ⟨own, r, acc, readPattern_skip (fun hComma => ?_) hOwn (by omega), hOwn, hLe, ?_⟩
      · rw [isPunct_of_isPunct hAssign (by decide)] at hComma
        cases hComma
      · rcases Nat.eq_or_lt_of_le hLe with rfl | hLt
        · exact (hOuter.closer_unique hOwn).le
        · exact (hFits.not_cross hOwn hOuter hLt (by omega)).le

/-- The pass over a pattern reads nothing in a bracket that belongs to a default value. -/
theorem not_read_in_default (hFits : c.Fits) (hPair : c.Pair t k) (hInner : c.Pair o d)
    (hto : t < o) (hok : o < k) (hDefault : InDefault c o) (hx : x ∈ patternBindings c t k) :
    ¬(o < x.position ∧ x.position < d) := by
  obtain ⟨e, heo, hAssign, hSame, hNoComma⟩ := hDefault
  obtain ⟨p, q, hParent, hOuter, htp, hpo, hoq, hqk⟩ := hFits.exists_parent hPair hto hok
  obtain ⟨⟨-, -, hpe, -⟩, -⟩ := hFits.parent_eq_some_iff.mp (hSame.trans hParent)
  obtain ⟨own, r, acc, hSkips, hOwn, hownp, hqr⟩ :=
    skips_from_assign hFits hPair hOuter htp hqk (hSame.trans hParent) hAssign
  have hdq := hFits.not_cross hOuter hInner hpo hoq
  have hod := hInner.lt
  have hComma : ∀ n, e + 1 ≤ n → n < d → c.isPunct n "," = true → c.parent n ≠ some own := by
    intro n hen hnd hIs hOwnParent
    obtain ⟨-, hLast⟩ := hFits.parent_eq_some_iff.mp hOwnParent
    have hpown := hLast p q hOuter (by omega) (by omega)
    obtain rfl := Nat.le_antisymm hownp hpown
    rcases Nat.lt_trichotomy n o with hno | rfl | hon
    · rw [hNoComma n hno hen (hOwnParent.trans hParent.symm)] at hIs
      cases hIs
    · have hNone := hFits.matching_of_isPunct hIs (by decide)
      exact (hFits.ne_of_matching_eq_none hInner hNone).1 rfl
    · have hDeeper := hLast o d hInner hon hnd
      omega
  -- no comma of the scope that is skipped stands before the end of the bracket
  have hWhole : readOver c ⟨none, []⟩ (t + 1) d = ⟨some (some own), acc⟩ := by
    have hed : e + 1 ≤ d := by omega
    rw [readOver_append (Nat.le_succ_of_le (by omega)) hed, hSkips]
    exact readOver_skip hOwn hComma hed (by omega)
  rw [patternBindings_eq, List.mem_reverse,
    readOver_append (k := d) (by omega) (by omega), hWhole] at hx
  rcases mem_readOver (by omega) hx with hBefore | hBehind
  · have hListed := listed_readOver (c := c) (i := t + 1) (j := e + 1) (by omega)
    rw [hSkips] at hListed
    have hRange := hListed.range x (List.mem_reverse.mpr hBefore)
    omega
  · omega

/-! ## Every name once -/

section Once

variable (hFits : c.Fits) (hParted : Parted c)
include hFits hParted

/-- A declaration inside a pattern is in a default value of it, and so are its names. -/
theorem position_ne_of_inside (hp : declaresVariables c p = true) (hStart : Introduces c p n)
    (hPair : c.Pair (n + 1) k) (hx : x ∈ patternBindings c (n + 1) k) (hnq : n + 1 < q)
    (hqk : q < k) (hy : y ∈ bindingsAt c q) : x.position ≠ y.position := by
  have hOrigin := (originates_bindingsAt hFits q).1 y hy
  have hInside : n + 1 ∈ c.brackets.ancestors q :=
    hFits.mem_ancestors_iff.mpr ⟨k, hPair, hnq, hqk⟩
  have hDefault : ∃ o ∈ c.brackets.ancestors q, n + 1 < o ∧ InDefault c o := by
    by_contra hNone
    refine hParted.intrudes q (lt_size_of_isKind hOrigin.keyword) n (by omega)
      ⟨declares_of_mem hy, hInside, ⟨p, hStart.le, hp, hStart⟩, fun o ho hno hIn => ?_⟩
    exact hNone ⟨o, ho, hno, hIn⟩
  obtain ⟨o, ho, hno, hIn⟩ := hDefault
  obtain ⟨d, hInner, hoq, hqd⟩ := hFits.mem_ancestors_iff.mp ho
  have hNot := not_read_in_default hFits hPair hInner hno (by omega) hIn hx
  have hBehind := hOrigin.lt
  have hClose := position_lt_closer hFits hParted hy hInner hoq hqd
  omega

theorem positions_ne (hpq : p < q) (hx : x ∈ bindingsAt c p) (hy : y ∈ bindingsAt c q) :
    x.position ≠ y.position := by
  have hOrigin := (originates_bindingsAt hFits q).1 y hy
  have hBehind := hOrigin.lt
  cases (originates_bindingsAt hFits p).1 x hx with
  | definition hDefinition hName hPosition => omega
  | imported hImport hLt hName hGoesOn =>
    intro hEq
    exact hParted.escapes q (lt_size_of_isKind hOrigin.keyword) p hpq
      ⟨declaresImports_of_mem hImport hx, .inl (declares_of_mem hy),
        fun n hnq hpn => hGoesOn n (by omega) hpn⟩
  | @declarator n hVariable hStart hReached hNames =>
    have hp := declaresVariables_of_mem hVariable hx
    have hAfter := hNames.le
    -- the keyword at `q` may stand behind the start of the declarator, then perhaps in its pattern,
    -- or between the keyword at `p` and the declarator
    rcases Nat.lt_or_ge n q with hnq | hqn
    · cases hNames with
      | name hName hPosition => omega
      | @pattern k hPair hRead =>
        have hRange := (listed_patternBindings hPair.lt).range x hRead
        have hNone := hFits.matching_of_isKind hOrigin.keyword (by decide)
        have hSides := hFits.ne_of_matching_eq_none hPair hNone
        rcases Nat.lt_or_ge q k with hqk | hkq
        · exact position_ne_of_inside hFits hParted hp hStart hPair hRead (by omega) hqk hy
        · omega
    · have hFront := position_lt_declarator hFits hParted hp hStart hReached hNames hpq hqn hy
      omega

theorem pairwise_collectBindings :
    (collectBindings c).Pairwise fun x y => x.position ≠ y.position := by
  rw [collectBindings, List.pairwise_flatMap]
  refine ⟨fun p _ => (originates_bindingsAt hFits p).2.imp Nat.ne_of_lt, ?_⟩
  exact List.pairwise_lt_range.imp fun hpq x hx y hy => positions_ne hFits hParted hpq hx hy

end Once

/-! ## Findings -/

theorem site?_spec {used : List String} {site : Site} (h : site? c used b = some site) :
    site.position = b.position ∧ site.behind = false := by
  obtain ⟨l, -, hSite⟩ := Option.bind_eq_some_iff.mp h
  split at hSite
  · cases hSite
  · split at hSite <;> cases hSite <;> exact ⟨rfl, rfl⟩

theorem locate?_spec {tokens : List Token} {site : Site} {v : Violation}
    (h : site.locate? tokens = some v) (hFront : site.behind = false) :
    ∃ t, tokens[site.position]? = some t ∧ v.line = t.line ∧ v.column = t.column := by
  obtain ⟨t, hToken, rfl⟩ := Option.map_eq_some_iff.mp h
  rw [if_neg (by simp [hFront])]
  exact ⟨t, hToken, rfl, rfl⟩

theorem pairwise_sites {used : List String} {bs : List Binding}
    (h : bs.Pairwise fun x y => x.position ≠ y.position) :
    (bs.filterMap (site? c used)).Pairwise fun s s' => s.position ≠ s'.position := by
  rw [List.pairwise_filterMap]
  refine h.imp fun hNe s hs s' hs' => ?_
  rwa [(site?_spec hs).1, (site?_spec hs').1]

/-- In a unit whose walks do not run into each other, every name is collected once, and no two
findings are at the same place. -/
theorem names_collected_once (path text : String) (u : SourceUnit)
    (h : SourceUnit.parse path text = .ok u) (hParted : Parted u.code) (options : Options) :
    ((collectBindings u.code).map (·.position)).Nodup ∧
      ((rule.check u options).map fun v => (v.line, v.column)).Nodup := by
  have hBindings := pairwise_collectBindings (SourceUnit.code_fits h) hParted
  refine ⟨List.pairwise_map.mpr hBindings, List.pairwise_map.mpr ?_⟩
  have hFront : ∀ s ∈ sites u.code options, s.behind = false := by
    intro s hs
    obtain ⟨b, -, hSite⟩ := List.mem_filterMap.mp hs
    exact (site?_spec hSite).2
  have hSites : (sites u.code options).Pairwise fun s s' => s.position ≠ s'.position :=
    pairwise_sites hBindings
  rw [rule, check_onCode, List.pairwise_filterMap]
  refine hSites.imp_of_mem fun hs hs' hNe v hv v' hv' => ?_
  obtain ⟨t, ht, hLine, hColumn⟩ := locate?_spec hv (hFront _ hs)
  obtain ⟨n, hn, hLine', hColumn'⟩ := locate?_spec hv' (hFront _ hs')
  rw [hLine, hColumn, hLine', hColumn']
  exact SourceUnit.place_ne h ht hn hNe

theorem names_collected_once_lines :
    let text := "import a from 'x'\nlet f = () => {}\nlet b = 1, { c = () => { let d } } = f\n"
    ∃ u, SourceUnit.parse "a.js" text = .ok u ∧
      (collectBindings u.code).map (·.position) = [1, 5, 13, 18, 25] ∧
      ((collectBindings u.code).map (·.position)).Nodup ∧
      ((rule.check u .empty).map fun v => (v.line, v.column)).Nodup := by
  intro text
  obtain ⟨u, hu, hParted, hPositions⟩ : ∃ u, SourceUnit.parse "a.js" text = .ok u ∧
      Parted u.code ∧ (collectBindings u.code).map (·.position) = [1, 5, 13, 18, 25] :=
    exists_ok (by decide +kernel)
  obtain ⟨hNames, hPlaces⟩ := names_collected_once "a.js" text u hu hParted .empty
  exact ⟨u, hu, hPositions, hNames, hPlaces⟩

/-- The brace of a function's body does not end a declaration, a property named import starts one,
and a computed key is read as a part of its pattern. -/
theorem names_collected_once_exceptions :
    ∃ u v w, SourceUnit.parse "a.js" "let f = function () {}\nlet b = 1, c = 2\n" = .ok u ∧
      SourceUnit.parse "a.js" "a = { import: b }\nlet b = 1\n" = .ok v ∧
      SourceUnit.parse "a.js" "let { [(() => { let z = 1; })()]: v } = o;\n" = .ok w ∧
      ((collectBindings u.code).map (·.position) = [1, 13, 9, 13] ∧
        (rule.check u .empty).map (fun v => (v.line, v.column)) =
          [(1, 5), (2, 12), (2, 5), (2, 12)]) ∧
      ((collectBindings v.code).map (·.position) = [5, 8, 8] ∧
        (rule.check v .empty).map (fun v => (v.line, v.column)) = [(1, 15), (2, 5), (2, 5)]) ∧
      (collectBindings w.code).map (·.position) = [9, 19, 9] ∧
        (rule.check w .empty).map (fun v => (v.line, v.column)) = [(1, 21), (1, 35), (1, 21)] := by
  obtain ⟨u, hu, hOver⟩ : ∃ u,
      SourceUnit.parse "a.js" "let f = function () {}\nlet b = 1, c = 2\n" = .ok u ∧
      (collectBindings u.code).map (·.position) = [1, 13, 9, 13] ∧
        (rule.check u .empty).map (fun v => (v.line, v.column)) =
          [(1, 5), (2, 12), (2, 5), (2, 12)] := exists_ok (by decide +kernel)
  obtain ⟨v, hv, hEscape⟩ : ∃ v,
      SourceUnit.parse "a.js" "a = { import: b }\nlet b = 1\n" = .ok v ∧
      (collectBindings v.code).map (·.position) = [5, 8, 8] ∧
        (rule.check v .empty).map (fun v => (v.line, v.column)) = [(1, 15), (2, 5), (2, 5)] :=
    exists_ok (by decide +kernel)
  obtain ⟨w, hw, hIntrude⟩ : ∃ w,
      SourceUnit.parse "a.js" "let { [(() => { let z = 1; })()]: v } = o;\n" = .ok w ∧
      (collectBindings w.code).map (·.position) = [9, 19, 9] ∧
        (rule.check w .empty).map (fun v => (v.line, v.column)) = [(1, 21), (1, 35), (1, 21)] :=
    exists_ok (by decide +kernel)
  exact ⟨u, v, w, hu, hv, hw, hOver, hEscape, hIntrude⟩

end RuleScout.UnusedNames
