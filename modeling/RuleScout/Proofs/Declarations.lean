import RuleScout.Proofs.PatternNames

/-!
# What a declaring keyword collects

The keyword of a declaration is the start of a walk over the positions behind it. The walk of `var`,
`let` or `const` goes from comma to comma among the positions with the parent of the keyword, until
its statement ends. That of `import` takes every position, until it meets the name of a module.
-/

set_option autoImplicit false

namespace RuleScout.UnusedNames

open Code

def isVariable (c : Code) (p : Nat) : Bool := c.isKeywordOf p ["var", "let", "const"]

def isDefinition (c : Code) (p : Nat) : Bool := c.isKeywordOf p ["function", "class"]

/-- Among the positions of a scope, the statement of a declaration ends here. -/
def EndsAt (c : Code) (scope : Option Nat) (n : Nat) : Prop :=
  c.parent n = scope ∧ (c.isPunct n ";" = true ∨ c.isKeyword n "of" = true ∨
    c.isKeyword n "in" = true ∨ (prev n).any (breaksAfter c) = true)

instance (c : Code) (scope : Option Nat) (n : Nat) : Decidable (EndsAt c scope n) :=
  inferInstanceAs (Decidable (_ ∧ _))

/-- The walk of the keyword at `p` gets to `n`. -/
structure Reaches (c : Code) (p n : Nat) : Prop where
  parent : c.parent n = c.parent p
  lt : p < n
  goesOn : ∀ m ≤ n, p < m → ¬EndsAt c (c.parent p) m

instance (c : Code) (p n : Nat) : Decidable (Reaches c p n) :=
  decidable_of_iff
    (c.parent n = c.parent p ∧ p < n ∧ ∀ m ≤ n, p < m → ¬EndsAt c (c.parent p) m)
    ⟨fun h => ⟨h.1, h.2.1, h.2.2⟩, fun h => ⟨h.parent, h.lt, h.goesOn⟩⟩

/-- A declarator of the keyword at `p` starts behind `q`: behind the keyword or behind a comma. -/
def Introduces (c : Code) (p q : Nat) : Prop :=
  q = p ∨ (c.isPunct q "," = true ∧ Reaches c p q)

instance (c : Code) (p q : Nat) : Decidable (Introduces c p q) :=
  inferInstanceAs (Decidable (_ ∨ _))

/-- Whether an import ends here; `outer` is the bracket around it. -/
def endsImport (c : Code) (outer : Option Nat) (n : Nat) : Bool :=
  (c.at? n).any fun l => l.kind = .string || l.isPunct ";" ||
    (l.kind = .identifier && l.text = "from" && c.parent n = outer)

/-- The declarator at `t` binds the name. -/
inductive Names (c : Code) (t : Nat) (b : Binding) : Prop where
  | name (hName : c.isKind t .identifier = true) (hPosition : b.position = t)
  | pattern {k : Nat} (hPair : c.Pair t k) (hRead : b ∈ patternBindings c t k)

/-- How the keyword at `p` comes to bind a name. -/
inductive Origin (c : Code) (p : Nat) (b : Binding) : Prop where
  | declarator {q : Nat} (hVariable : isVariable c p = true) (hStart : Introduces c p q)
      (hReached : Reaches c p (q + 1)) (hNames : Names c (q + 1) b)
  | definition (hDefinition : isDefinition c p = true) (hName : c.isKind (p + 1) .identifier = true)
      (hPosition : b.position = p + 1)
  | imported (hImport : c.isKeyword p "import" = true) (hLt : p < b.position)
      (hName : c.isKind b.position .identifier = true)
      (hGoesOn : ∀ m ≤ b.position, p < m → endsImport c (c.parent p) m = false)

variable {c : Code} {p q n t k m left fuel last : Nat} {scope scopeEnd outer : Option Nat}
  {b : Binding} {text : String}

/-! ## What is not the end of a statement -/

theorem breaksAfter_of_isPunct (h : c.isPunct (p + 1) text = true) : breaksAfter c p = false := by
  obtain ⟨l, hAt, hPunct⟩ := isPunct_iff.mp h
  have hAfter : c.after? p = some l := hAt
  rw [breaksAfter]
  split
  · rename_i before following hBefore hFollowing
    cases hAfter.symm.trans hFollowing
    simp [(Lexeme.isPunct_iff.mp hPunct).1]
  · rfl

theorem not_endsAt_of_isPunct (h : c.isPunct n text = true) (hOther : text ≠ ";") :
    ¬EndsAt c scope n := by
  have hBreaks : (prev n).any (breaksAfter c) = false := by
    cases n with
    | zero => rfl
    | succ p => exact breaksAfter_of_isPunct h
  simp [EndsAt, isPunct_of_isPunct h hOther, isKeyword_of_isPunct h, hBreaks]

theorem breaksAfter_of_endsExpression (h : c.endsExpression p = false) :
    breaksAfter c p = false := by
  rw [breaksAfter]
  split
  · rw [h, Bool.and_false]
  · rfl

theorem endsExpression_of_isVariable (h : isVariable c p = true) : c.endsExpression p = false := by
  obtain ⟨l, hAt, hKind, hText⟩ := isKeywordOf_iff.mp h
  have hPlain : ∀ word ∈ ["var", "let", "const"], word ∉ valueKeywords := by decide
  simp [endsExpression, hAt, hKind, hPlain _ hText]

theorem endsExpression_of_comma (h : c.isPunct p "," = true) : c.endsExpression p = false := by
  obtain ⟨l, hAt, hPunct⟩ := isPunct_iff.mp h
  obtain ⟨hKind, hText⟩ := Lexeme.isPunct_iff.mp hPunct
  simp [endsExpression, hAt, hKind, hText]

/-- A name behind the keyword or behind a comma does not start a statement. -/
theorem not_endsAt_of_name (hName : c.isKind (q + 1) .identifier = true)
    (hBefore : c.endsExpression q = false) : ¬EndsAt c scope (q + 1) := by
  have hBreaks : (prev (q + 1)).any (breaksAfter c) = false :=
    breaksAfter_of_endsExpression hBefore
  simp [EndsAt, isPunct_of_isKind hName, isKeyword_of_isKind hName, hBreaks]

/-! ## From comma to comma -/

/-- The next declarator stands behind a comma of the scope, and nothing before it ends the
statement. -/
theorem nextDeclarator_spec (h : nextDeclarator c scope scopeEnd left last = some t) :
    ∃ n, t = n + 1 ∧ last < n ∧ c.isPunct n "," = true ∧ c.parent n = scope ∧
      ∀ m ≤ n, last < m → ¬EndsAt c scope m := by
  induction left generalizing last with
  | zero => cases h
  | succ left ih =>
    have hLater (hHere : ¬EndsAt c scope (last + 1))
        (h : nextDeclarator c scope scopeEnd left (last + 1) = some t) :
        ∃ n, t = n + 1 ∧ last < n ∧ c.isPunct n "," = true ∧ c.parent n = scope ∧
          ∀ m ≤ n, last < m → ¬EndsAt c scope m := by
      obtain ⟨n, rfl, hLt, hComma, hParent, hGoesOn⟩ := ih h
      refine ⟨n, rfl, by omega, hComma, hParent, fun m hmn hm => ?_⟩
      rcases Nat.eq_or_lt_of_le hm with rfl | hm
      · exact hHere
      · exact hGoesOn m hmn hm
    simp only [nextDeclarator] at h
    split at h
    · cases h
    · split at h
      · rename_i hParent
        split at h
        · rename_i hComma
          rw [next] at h
          split at h
          · cases h
            refine ⟨last + 1, rfl, Nat.lt_succ_self last, hComma, hParent, fun m hmn hm => ?_⟩
            obtain rfl : m = last + 1 := by omega
            exact not_endsAt_of_isPunct hComma (by decide)
          · cases h
        · split at h
          · cases h
          · rename_i hGoesOn
            refine hLater (fun hEnds => hGoesOn ?_) h
            simpa [EndsAt, hParent, prev, or_assoc] using hEnds
      · rename_i hParent
        exact hLater (fun hEnds => hParent hEnds.1) h

/-! ## Declarators -/

/-- Behind a lexeme that is no bracket the parent is the same, unless a bracket closes there. -/
theorem parent_succ (hFits : c.Fits) (hSingle : c.matching q = none)
    (hNext : ∀ b : Bracket, c.isPunct (q + 1) b.closing = false) :
    c.parent (q + 1) = c.parent q := by
  refine hFits.parent_congr fun o k hPair => ?_
  have hSides := hFits.ne_of_matching_eq_none hPair hSingle
  have hCloser : k ≠ q + 1 := by
    rintro rfl
    obtain ⟨b, -, hClosing⟩ := hFits.sort hPair
    rw [hNext b] at hClosing
    cases hClosing
  omega

theorem parent_ne_of_pair (hFits : c.Fits) (hPair : c.Pair t k) (hpt : p < t) (htm : t < m)
    (hmk : m < k) : c.parent m ≠ c.parent p := by
  obtain ⟨q, d, hParent, -, htq, -⟩ := hFits.exists_parent hPair htm hmk
  intro hSame
  obtain ⟨⟨e, -, hqp, -⟩, -⟩ := hFits.parent_eq_some_iff.mp (hSame.symm.trans hParent)
  omega

theorem Introduces.le (h : Introduces c p q) : p ≤ q := by
  rcases h with rfl | ⟨-, hReached⟩
  · exact Nat.le_refl q
  · exact hReached.lt.le

theorem Introduces.parent (h : Introduces c p q) : c.parent q = c.parent p := by
  rcases h with rfl | ⟨-, hReached⟩
  · rfl
  · exact hReached.parent

theorem Introduces.endsExpression (h : Introduces c p q) (hVariable : isVariable c p = true) :
    c.endsExpression q = false := by
  rcases h with rfl | ⟨hComma, -⟩
  · exact endsExpression_of_isVariable hVariable
  · exact endsExpression_of_comma hComma

theorem Introduces.matching (h : Introduces c p q) (hFits : c.Fits)
    (hVariable : isVariable c p = true) : c.matching q = none := by
  rcases h with rfl | ⟨hComma, -⟩
  · exact hFits.matching_of_isKind (isKind_of_isKeywordOf hVariable) (by decide)
  · exact hFits.matching_of_isPunct hComma (by decide)

/-- The walk gets to what is behind the keyword or a comma if neither the statement ends there nor a
bracket. -/
theorem Introduces.reaches (h : Introduces c p q) (hFits : c.Fits)
    (hVariable : isVariable c p = true) (hEnds : ¬EndsAt c (c.parent p) (q + 1))
    (hClosing : ∀ b : Bracket, c.isPunct (q + 1) b.closing = false) : Reaches c p (q + 1) where
  parent := by rw [parent_succ hFits (h.matching hFits hVariable) hClosing, h.parent]
  lt := Nat.lt_succ_of_le h.le
  goesOn m hmq hpm := by
    rcases Nat.eq_or_lt_of_le hmq with rfl | hmq
    · exact hEnds
    · rcases h with rfl | ⟨-, hReached⟩
      · omega
      · exact hReached.goesOn m (Nat.le_of_lt_succ hmq) hpm

/-- The next declarator of a walk, with the search starting behind a declarator that ends at
`last`. -/
theorem introduces_next (hReached : Reaches c p (q + 1)) (hLast : q + 1 ≤ last)
    (hInside : ∀ m ≤ last, q + 1 < m → ¬EndsAt c (c.parent p) m)
    (h : nextDeclarator c (c.parent p) scopeEnd left last = some t) :
    ∃ n, t = n + 1 ∧ last < n ∧ Introduces c p n := by
  obtain ⟨n, rfl, hLt, hComma, hParent, hGoesOn⟩ := nextDeclarator_spec h
  have hpq := hReached.lt
  refine ⟨n, rfl, hLt, .inr ⟨hComma, hParent, by omega, fun m hmn hpm => ?_⟩⟩
  rcases Nat.lt_or_ge last m with hm | hm
  · exact hGoesOn m hmn hm
  · rcases Nat.lt_or_ge (q + 1) m with hq | hq
    · exact hInside m hm hq
    · exact hReached.goesOn m hq hpm

/-- The other side of an opening bracket is behind it. -/
theorem pair_of_opening {o : Bracket} (hFits : c.Fits) (hOpening : c.isPunct t o.opening = true)
    (hMatching : c.matching t = some k) : c.Pair t k := by
  refine (hFits.matching_iff_pair.mp hMatching).resolve_right fun hPair => ?_
  obtain ⟨b, -, hClosing⟩ := hFits.sort hPair
  rw [isPunct_of_isPunct hOpening (opening_ne_closing o b)] at hClosing
  cases hClosing

theorem declarators_name (hName : c.isKind t .identifier = true) :
    declarators c scope (fuel + 1) t = [⟨t, assigns c (t + 1)⟩] ++ onwards c scope fuel t := by
  simp only [declarators, if_pos hName]
  rfl

/-- What one declarator binds, up to `last`, and the walk behind it. -/
structure Declares (c : Code) (p q fuel last : Nat) (own : List Binding) : Prop where
  reached : Reaches c p (q + 1)
  le : q + 1 ≤ last
  names : ∀ b ∈ own, Names c (q + 1) b
  range : ∀ b ∈ own, q + 1 ≤ b.position ∧ b.position ≤ last
  sorted : own.Pairwise (·.position < ·.position)
  rest : declarators c (c.parent p) (fuel + 1) (q + 1) = own ∨
    ∃ n, last < n ∧ Introduces c p n ∧ declarators c (c.parent p) (fuel + 1) (q + 1) =
      own ++ declarators c (c.parent p) fuel (n + 1)

theorem rest_of_inside (hReached : Reaches c p (q + 1)) (hLast : q + 1 ≤ last)
    (hInside : ∀ m ≤ last, q + 1 < m → ¬EndsAt c (c.parent p) m) {all own : List Binding}
    (hAll : all = own ++ onwards c (c.parent p) fuel last) :
    all = own ∨ ∃ n, last < n ∧ Introduces c p n ∧
      all = own ++ declarators c (c.parent p) fuel (n + 1) := by
  rw [onwards] at hAll
  split at hAll
  · rename_i t hNext
    obtain ⟨n, rfl, hLt, hStart⟩ := introduces_next hReached hLast hInside hNext
    exact .inr ⟨n, hLt, hStart, hAll⟩
  · rw [List.append_nil] at hAll
    exact .inl hAll

section Declarator

variable (hFits : c.Fits) (hVariable : isVariable c p = true) (hStart : Introduces c p q)
include hFits hVariable hStart

theorem declares_name (hName : c.isKind (q + 1) .identifier = true) (fuel : Nat) :
    Declares c p q fuel (q + 1) [⟨q + 1, assigns c (q + 1 + 1)⟩] := by
  have hReached := hStart.reaches hFits hVariable
    (not_endsAt_of_name hName (hStart.endsExpression hVariable))
    fun b => isPunct_of_isKind hName (by decide)
  constructor
  case reached => exact hReached
  case le => exact Nat.le_refl _
  case names => simpa using .name hName rfl
  case range => simp
  case sorted => exact List.pairwise_singleton _ _
  case rest =>
    exact rest_of_inside hReached (Nat.le_refl _) (by omega) (declarators_name hName)

theorem declares_pattern {s : Shape} (hOpening : c.isPunct (q + 1) s.bracket.opening = true)
    (hMatching : c.matching (q + 1) = some k) (fuel : Nat) :
    Declares c p q fuel k (patternBindings c (q + 1) k) := by
  have hPair := pair_of_opening hFits hOpening hMatching
  have hListed := listed_patternBindings (c := c) hPair.lt
  have hReached := hStart.reaches hFits hVariable
    (not_endsAt_of_isPunct hOpening (by cases s <;> decide))
    fun b => isPunct_of_isPunct hOpening (opening_ne_closing s.bracket b)
  constructor
  case reached => exact hReached
  case le => exact hPair.lt.le
  case names => exact fun b hb => .pattern hPair hb
  case range =>
    exact fun b hb => ⟨Nat.le_of_succ_le (hListed.range b hb).1, (hListed.range b hb).2.le⟩
  case sorted => exact hListed.sorted
  case rest =>
    refine rest_of_inside hReached hPair.lt.le (fun m hm hqm => ?_)
      (declarators_bracket hOpening hMatching fuel)
    rcases Nat.eq_or_lt_of_le hm with rfl | hm
    · obtain ⟨a, -, hClosing⟩ := hFits.sort hPair
      exact not_endsAt_of_isPunct hClosing (by cases a <;> decide)
    · exact fun hEnds => parent_ne_of_pair hFits hPair hReached.lt hqm hm hEnds.1

theorem declarators_succ (fuel : Nat) :
    declarators c (c.parent p) (fuel + 1) (q + 1) = [] ∨
      ∃ last own, Declares c p q fuel last own := by
  by_cases hName : c.isKind (q + 1) .identifier = true
  · exact .inr ⟨_, _, declares_name hFits hVariable hStart hName fuel⟩
  · by_cases hOpens : (c.isPunct (q + 1) "\x7b" || c.isPunct (q + 1) "[") = true
    · cases hMatching : c.matching (q + 1) with
      | none =>
        left
        simp [declarators, hName, hOpens, hMatching]
      | some close =>
        right
        rcases Bool.or_eq_true_iff.mp hOpens with hOpening | hOpening
        · exact ⟨_, _, declares_pattern (s := .object) hFits hVariable hStart hOpening hMatching fuel⟩
        · exact ⟨_, _, declares_pattern (s := .array) hFits hVariable hStart hOpening hMatching fuel⟩
    · left
      simp [declarators, hName, hOpens]

end Declarator

/-- The run of a walk: what it collects is bound by its declarators, in the order of the source. -/
theorem declarators_spec (hFits : c.Fits) (hVariable : isVariable c p = true)
    (hStart : Introduces c p q) (fuel : Nat) :
    (∀ b ∈ declarators c (c.parent p) fuel (q + 1), q + 1 ≤ b.position ∧
      ∃ n, Introduces c p n ∧ Reaches c p (n + 1) ∧ Names c (n + 1) b) ∧
    (declarators c (c.parent p) fuel (q + 1)).Pairwise (·.position < ·.position) := by
  induction fuel generalizing q with
  | zero => exact ⟨nofun, .nil⟩
  | succ fuel ih =>
    rcases declarators_succ hFits hVariable hStart fuel with hNone | ⟨last, own, hOne⟩
    · rw [hNone]
      exact ⟨nofun, .nil⟩
    · have hOwn : ∀ b ∈ own, q + 1 ≤ b.position ∧
          ∃ n, Introduces c p n ∧ Reaches c p (n + 1) ∧ Names c (n + 1) b :=
        fun b hb => ⟨(hOne.range b hb).1, q, hStart, hOne.reached, hOne.names b hb⟩
      rcases hOne.rest with hAll | ⟨n, hLt, hNext, hAll⟩
      · rw [hAll]
        exact ⟨hOwn, hOne.sorted⟩
      · obtain ⟨hMem, hSorted⟩ := ih hNext
        have hLe := hOne.le
        rw [hAll, List.forall_mem_append, List.pairwise_append]
        refine ⟨⟨hOwn, fun b hb => ⟨?_, (hMem b hb).2⟩⟩, hOne.sorted, hSorted, ?_⟩
        · have hBehind := (hMem b hb).1
          omega
        · intro b hb d hd
          have hBefore := (hOne.range b hb).2
          have hBehind := (hMem d hd).1
          omega

/-! ## Imports -/

theorem endsImport_eq_false {l : Lexeme} (hAt : c.at? n = some l) (hKind : l.kind ≠ .string)
    (hPunct : l.isPunct ";" = false)
    (hFrom : ¬(l.kind = .identifier ∧ l.text = "from" ∧ c.parent n = outer)) :
    endsImport c outer n = false := by
  simp only [endsImport, hAt, Option.any_some, hPunct, hKind, decide_false, Bool.false_or,
    Bool.and_assoc]
  simpa using hFrom

/-- Nothing that an import collects stands behind its end. -/
theorem importNames_spec (c : Code) (outer : Option Nat) (left p : Nat) :
    (∀ b ∈ importNames c outer left p, p ≤ b.position ∧ c.isKind b.position .identifier = true ∧
      ∀ m ≤ b.position, p ≤ m → endsImport c outer m = false) ∧
    (importNames c outer left p).Pairwise (·.position < ·.position) := by
  induction left generalizing p with
  | zero => exact ⟨nofun, .nil⟩
  | succ left ih =>
    obtain ⟨hMem, hSorted⟩ := ih (p + 1)
    have hLater (hHere : endsImport c outer p = false) : ∀ b ∈ importNames c outer left (p + 1),
        p ≤ b.position ∧ c.isKind b.position .identifier = true ∧
          ∀ m ≤ b.position, p ≤ m → endsImport c outer m = false := by
      intro b hb
      obtain ⟨hLe, hName, hGoesOn⟩ := hMem b hb
      refine ⟨by omega, hName, fun m hmb hpm => ?_⟩
      rcases Nat.eq_or_lt_of_le hpm with rfl | hpm
      · exact hHere
      · exact hGoesOn m hmb hpm
    rw [importNames]
    cases hAt : c.at? p with
    | none => exact ⟨nofun, .nil⟩
    | some l =>
      simp only
      split
      · exact ⟨nofun, .nil⟩
      · rename_i hGoesOn
        simp only [Bool.or_eq_true, decide_eq_true_eq, not_or, Bool.not_eq_true] at hGoesOn
        split
        · rename_i hName
          split
          · exact ⟨nofun, .nil⟩
          · rename_i hFrom
            have hHere : endsImport c outer p = false :=
              endsImport_eq_false hAt hGoesOn.1 hGoesOn.2 fun h => hFrom (by simpa using h.2)
            split
            · exact ⟨hLater hHere, hSorted⟩
            · refine ⟨List.forall_mem_cons.mpr ⟨⟨Nat.le_refl p, ?_, ?_⟩, hLater hHere⟩,
                List.pairwise_cons.mpr ⟨fun b hb => (hMem b hb).1, hSorted⟩⟩
              · exact isKind_iff.mpr ⟨l, hAt, hName⟩
              · intro m hmp hpm
                obtain rfl := Nat.le_antisymm hmp hpm
                exact hHere
        · rename_i hName
          exact ⟨hLater (endsImport_eq_false hAt hGoesOn.1 hGoesOn.2 fun h => hName h.1), hSorted⟩

/-! ## Declaring keywords -/

/-- All that the bindings at a position have in common. -/
def Originates (c : Code) (p : Nat) (bs : List Binding) : Prop :=
  (∀ b ∈ bs, Origin c p b) ∧ bs.Pairwise (·.position < ·.position)

theorem originates_nil : Originates c p [] := ⟨nofun, .nil⟩

theorem originates_declarators (hFits : c.Fits) (hVariable : isVariable c p = true) :
    Originates c p (declarators c (c.parent p) fuel (p + 1)) := by
  obtain ⟨hMem, hSorted⟩ := declarators_spec hFits hVariable (.inl rfl) fuel
  refine ⟨fun b hb => ?_, hSorted⟩
  obtain ⟨-, n, hStart, hReached, hNames⟩ := hMem b hb
  exact .declarator hVariable hStart hReached hNames

theorem originates_definition (hDefinition : isDefinition c p = true)
    (hName : c.isKind (p + 1) .identifier = true) : Originates c p [⟨p + 1, false⟩] := by
  refine ⟨fun b hb => ?_, List.pairwise_singleton _ _⟩
  obtain rfl := List.mem_singleton.mp hb
  exact .definition hDefinition hName rfl

theorem originates_import (hImport : c.isKeyword p "import" = true) :
    Originates c p (importNames c (c.parent p) left (p + 1)) := by
  obtain ⟨hMem, hSorted⟩ := importNames_spec c (c.parent p) left (p + 1)
  refine ⟨fun b hb => ?_, hSorted⟩
  obtain ⟨hLe, hName, hGoesOn⟩ := hMem b hb
  exact .imported hImport hLe hName hGoesOn

theorem originates_bindingsAt (hFits : c.Fits) (p : Nat) : Originates c p (bindingsAt c p) := by
  rw [bindingsAt]
  split
  · exact originates_nil
  · rename_i l hAt
    split
    · rename_i hKind
      have hVariable (hText : l.text ∈ ["var", "let", "const"]) : Originates c p
          (if isExported c p then [] else declarators c (c.parent p) c.size (p + 1)) := by
        split
        · exact originates_nil
        · exact originates_declarators hFits (isKeywordOf_iff.mpr ⟨l, hAt, hKind, hText⟩)
      have hDefinition (hText : l.text ∈ ["function", "class"]) : Originates c p
          (if c.isKind (p + 1) .identifier && startsStatement c p && !isExported c p then
            [⟨p + 1, false⟩] else []) := by
        split
        · rename_i hAll
          simp only [Bool.and_eq_true] at hAll
          exact originates_definition (isKeywordOf_iff.mpr ⟨l, hAt, hKind, hText⟩) hAll.1.1
        · exact originates_nil
      split
      · exact hVariable (by simp [*])
      · exact hVariable (by simp [*])
      · exact hVariable (by simp [*])
      · exact hDefinition (by simp [*])
      · exact hDefinition (by simp [*])
      · rename_i hText
        split
        · exact originates_nil
        · exact originates_import (isKeyword_iff.mpr ⟨l, hAt, hKind, hText⟩)
      · exact originates_nil
    · exact originates_nil

end RuleScout.UnusedNames
