import Mathlib.Data.List.Forall2
import Mathlib.Data.Option.Basic
import RuleScout.Proofs.TokenStyles

/-!
# Declared names on tokens

The rule about unused names once more on the tokens of a unit: the walks over declarators, patterns
and imports go from a token to the next one that is not trivia. The names that are bound and the
names that are used are those that the rule on the code finds.
-/

set_option autoImplicit false

namespace RuleScout

open SourceUnit UnusedNames

theorem SourceUnit.left_decreases {u : SourceUnit} {i n : Nat} (h : u.nextSignificant i = some n) :
    u.tokens.size - n < u.tokens.size - i := by
  have hLater := lt_of_next h
  have hInside := lt_size_of_mem (isSignificant_iff.mp (isSignificant_of_next h))
  omega

namespace OnTokens

variable (u : SourceUnit)

/-! ## Declarations -/

def isModifier (i : Nat) : Bool := isKeyword u i "async" || isKeyword u i "default"

/-- The token before `i` and any modifiers there. -/
def beforeModifiers (i : Nat) : Option Nat :=
  match _hPrev : u.prevSignificant i with
  | none => none
  | some j => if isModifier u j then beforeModifiers j else some j
termination_by i
decreasing_by exact lt_of_prev _hPrev

def isExported (i : Nat) : Bool := (beforeModifiers u i).any (isKeyword u · "export")

def startsStatement (i : Nat) : Bool :=
  match beforeModifiers u i with
  | none => true
  | some j =>
    isPunct u j ";" || isPunct u j "\x7d" ||
      (isPunct u j "\x7b" && u.braceKind j = some .block) || isKeyword u j "export"

/-- Whether an initialiser ends behind the token at `i` because a new line starts a new
statement. -/
def breaksAfter (i : Nat) : Bool :=
  match lexeme? u i, after? u i with
  | some before, some following =>
    before.endLine < following.line &&
      (following.kind = .identifier ||
        (following.kind = .keyword && following.text ≠ "instanceof")) &&
      endsExpression u i
  | _, _ => false

/-- The start of the next declarator: the token after the comma that ends this one. The search
starts behind `i` and ends with the statement or at `scopeEnd`. -/
def nextDeclarator (scope scopeEnd : Option Nat) (i : Nat) : Option Nat :=
  match _hNext : u.nextSignificant i with
  | none => none
  | some n =>
    if some n = scopeEnd then none
    else if u.parent n = scope then
      if isPunct u n "," then u.nextSignificant n
      else if isPunct u n ";" || isKeyword u n "of" || isKeyword u n "in" || breaksAfter u i then
        none
      else nextDeclarator scope scopeEnd n
    else nextDeclarator scope scopeEnd n
termination_by u.tokens.size - i
decreasing_by all_goals exact left_decreases _hNext

def readPattern (s : PatternState) (i : Nat) : PatternState :=
  match s.defaultScope with
  | some scope =>
    if (isPunct u i "," && u.parent i = scope) || scope.bind u.matching = some i then
      { s with defaultScope := none }
    else s
  | none =>
    if isPunct u i "=" then { s with defaultScope := some (u.parent i) }
    else if isKind u i .identifier && !(after? u i).any (·.isPunct ":") then
      { s with bound := ⟨i, true⟩ :: s.bound }
    else s

def patternBindings (opener close : Nat) : List Binding :=
  let inside := u.significant.filter fun i => opener < i && i < close
  (inside.foldl (readPattern u) ⟨none, []⟩).bound.reverse

def assigns (following : Lexeme) : Bool :=
  following.isPunct "=" || following.isKeyword "of" || following.isKeyword "in"

def declarators (scope : Option Nat) : Nat → Nat → List Binding
  | 0, _ => []
  | fuel + 1, i =>
    let onwards (last : Nat) : List Binding :=
      match nextDeclarator u scope (scope.bind u.matching) last with
      | some n => declarators scope fuel n
      | none => []
    if isKind u i .identifier then ⟨i, (after? u i).any assigns⟩ :: onwards i
    else if isPunct u i "\x7b" || isPunct u i "[" then
      match u.matching i with
      | some close => patternBindings u i close ++ onwards close
      | none => []
    else []

/-- The names of an import, from the token at `i` on; `outer` is the bracket around the import. -/
def importNames (outer : Option Nat) (i : Nat) : List Binding :=
  match lexeme? u i with
  | none => []
  | some l =>
    if l.kind = .string || l.isPunct ";" then []
    else
      let rest :=
        match _hNext : u.nextSignificant i with
        | none => []
        | some n => importNames outer n
      if l.kind = .identifier then
        if l.text = "from" && u.parent i = outer then []
        else
          let renames := l.text = "as" && (after? u i).any (·.kind = .identifier)
          let isRenamed := (after? u i).any fun n => n.kind = .identifier && n.text = "as"
          if renames || isRenamed then rest else ⟨i, false⟩ :: rest
      else rest
termination_by u.tokens.size - i
decreasing_by exact left_decreases _hNext

def bindingsAt (i : Nat) : List Binding :=
  match lexeme? u i, u.nextSignificant i with
  | some l, some n =>
    if l.kind = .keyword then
      match l.text with
      | "var" | "let" | "const" =>
        if isExported u i then [] else declarators u (u.parent i) u.significant.length n
      | "function" | "class" =>
        if isKind u n .identifier && startsStatement u i && !isExported u i then [⟨n, false⟩]
        else []
      | "import" =>
        if isPunct u n "(" || isPunct u n "." then [] else importNames u (u.parent i) n
      | _ => []
    else []
  | _, _ => []

def collectBindings : List Binding := u.significant.flatMap (bindingsAt u)

/-! ## Uses -/

def isKey (i : Nat) : Bool :=
  (u.parent i).any (fun o => u.braceKind o = some .object) && (after? u i).any (·.isPunct ":") &&
    (before? u i).any fun l => l.isPunct "\x7b" || l.isPunct ","

def isReference (i : Nat) : Bool :=
  if (before? u i).any UnusedNames.isMemberDot then false
  else if (after? u i).isNone then true
  else !(after? u i).any (·.isPunct "=") && !isKey u i

def usedAt (declared : List Nat) (i : Nat) : List String :=
  match lexeme? u i with
  | none => []
  | some l =>
    if l.kind = .identifier then if i ∉ declared && isReference u i then [l.text] else []
    else if l.kind = .template then templateIdentifiers l.text
    else []

def usedNames (declared : List Nat) : List String := u.significant.flatMap (usedAt u declared)

def unused? (used : List String) (b : Binding) : Option Violation :=
  (u.token? b.position).bind fun t =>
    if t.text ∈ used then none
    else if b.assigned then
      some (.atStart t ("'" ++ t.text ++ "' is assigned a value but never used."))
    else some (.atStart t ("'" ++ t.text ++ "' is defined but never used."))

def unusedNames (_ : Options) : List Violation :=
  let bindings := collectBindings u
  let used := usedNames u (bindings.map (·.position))
  bindings.filterMap (unused? u used)

/-! ## Statements and declarators in the code -/

variable {u} {i j n : Nat} {scope scope' scopeEnd scopeEnd' : Option Nat}

section Answers

variable (h : u.Renumbered) (hi : u.isSignificant i)
include h hi

theorem isModifier_rank : UnusedNames.isModifier u.code (u.rank i) = isModifier u i := by
  rw [UnusedNames.isModifier, isModifier, isKeyword_rank h hi, isKeyword_rank h hi]

omit hi in
theorem located_beforeModifiers (i : Nat) (hi : u.isSignificant i) :
    u.Located (beforeModifiers u i) (UnusedNames.beforeModifiers u.code (u.rank i)) := by
  fun_induction beforeModifiers u i with
  | case1 i hPrev =>
    rw [rank_of_first h hi hPrev, UnusedNames.beforeModifiers]
    exact ⟨rfl, nofun⟩
  | case2 i j hPrev hModifier ih =>
    have hj := isSignificant_of_prev hPrev
    rw [rank_of_prev h hi hPrev, UnusedNames.beforeModifiers, isModifier_rank h hj,
      if_pos hModifier]
    exact ih hj
  | case3 i j hPrev hOther =>
    have hj := isSignificant_of_prev hPrev
    rw [rank_of_prev h hi hPrev, UnusedNames.beforeModifiers, isModifier_rank h hj, if_neg hOther]
    exact located_some hj

theorem isExported_rank : UnusedNames.isExported u.code (u.rank i) = isExported u i :=
  (located_beforeModifiers h i hi).any fun _ hj => isKeyword_rank h hj "export"

theorem startsStatement_rank :
    UnusedNames.startsStatement u.code (u.rank i) = startsStatement u i := by
  rw [UnusedNames.startsStatement, startsStatement]
  rcases (located_beforeModifiers h i hi).cases with ⟨hNone, hCode⟩ | ⟨j, hSome, hCode, hj⟩
  · rw [hNone, hCode]
  · rw [hSome, hCode]
    simp only [isPunct_rank h hj, isKeyword_rank h hj, braceKind_rank h hj]

theorem breaksAfter_rank : UnusedNames.breaksAfter u.code (u.rank i) = breaksAfter u i := by
  rw [UnusedNames.breaksAfter, at?_rank h hi, Code.after?, at?_succ_rank h hi,
    endsExpression_rank h hi]
  rfl

theorem assigns_rank : UnusedNames.assigns u.code (u.rank i + 1) = (after? u i).any assigns := by
  rw [UnusedNames.assigns, isPunct_succ_rank h hi, isKeyword_succ_rank h hi,
    isKeyword_succ_rank h hi]
  cases after? u i <;> rfl

omit hi in
theorem located_nextDeclarator (hScope : u.Located scope scope')
    (hEnd : u.Located scopeEnd scopeEnd') (left : Nat) (i : Nat) (hi : u.isSignificant i)
    (hLeft : u.code.size = u.rank i + 1 + left) :
    u.Located (nextDeclarator u scope scopeEnd i)
      (UnusedNames.nextDeclarator u.code scope' scopeEnd' left (u.rank i)) := by
  induction left generalizing i with
  | zero =>
    have hLast : u.nextSignificant i = none := by
      rcases (h.located_next hi).cases with ⟨hNone, -⟩ | ⟨n, hNext, -, hn⟩
      · exact hNone
      · have hInside := rank_lt_size hn
        rw [rank_of_next h hi hNext] at hInside
        omega
    rw [nextDeclarator, UnusedNames.nextDeclarator]
    split
    · exact ⟨rfl, nofun⟩
    · rename_i n hNext
      cases hLast.symm.trans hNext
  | succ left ih =>
    rw [nextDeclarator]
    split
    · rename_i hNone
      have hCode := (h.located_next hi).eq
      rw [hNone, Code.next, if_pos (by omega)] at hCode
      cases hCode
    rename_i n hNext
    have hn := isSignificant_of_next hNext
    have hRank := rank_of_next h hi hNext
    have hOnwards := ih n hn (by omega)
    have hHere := (located_some hn).eq_iff hEnd
    have hOwn := (h.located_parent hn).eq_iff hScope
    rw [UnusedNames.nextDeclarator, ← hRank, isPunct_rank h hn, isPunct_rank h hn,
      isKeyword_rank h hn, isKeyword_rank h hn, breaksAfter_rank h hi]
    by_cases hStop : some n = scopeEnd
    · rw [if_pos hStop, if_pos (hHere.mpr hStop)]
      exact ⟨rfl, nofun⟩
    rw [if_neg hStop, if_neg (mt hHere.mp hStop)]
    by_cases hParent : u.parent n = scope
    · rw [if_pos hParent, if_pos (hOwn.mpr hParent)]
      split
      · exact h.located_next hn
      · split
        · exact ⟨rfl, nofun⟩
        · exact hOnwards
    · rw [if_neg hParent, if_neg (mt hOwn.mp hParent)]
      exact hOnwards

end Answers

/-! ## Bindings that go together -/

/-- The same binding, by its token and by its place in the code. -/
structure SameBinding (u : SourceUnit) (b b' : Binding) : Prop where
  position : b'.position = u.rank b.position
  assigned : b'.assigned = b.assigned
  significant : u.isSignificant b.position = true

structure SameState (u : SourceUnit) (s s' : PatternState) : Prop where
  defaultScope : Option.Rel u.Located s.defaultScope s'.defaultScope
  bound : List.Forall₂ (SameBinding u) s.bound s'.bound

section Bindings

variable (h : u.Renumbered)
include h

theorem sameState_readPattern {s s' : PatternState} (hState : SameState u s s')
    (hi : u.isSignificant i) :
    SameState u (readPattern u s i) (UnusedNames.readPattern u.code s' (u.rank i)) := by
  obtain ⟨hDefault, hBound⟩ := hState
  obtain ⟨d, bs⟩ := s
  obtain ⟨d', bs'⟩ := s'
  rw [readPattern, UnusedNames.readPattern]
  cases hDefault with
  | none =>
    simp only [isPunct_rank h hi, isKind_rank h hi, isPunct_succ_rank h hi]
    split
    · exact ⟨.some (h.located_parent hi), hBound⟩
    · split
      · exact ⟨.none, .cons ⟨rfl, rfl, hi⟩ hBound⟩
      · exact ⟨.none, hBound⟩
  | @some scope scope' hScope =>
    have hOwn := (h.located_parent hi).eq_iff hScope
    have hEnds := (hScope.step fun _ => h.located_matching).eq_iff (located_some hi)
    simp only [isPunct_rank h hi, hOwn, hEnds]
    split
    · exact ⟨.none, hBound⟩
    · exact ⟨.some hScope, hBound⟩

theorem sameState_foldl {is : List Nat} (hAll : ∀ i ∈ is, u.isSignificant i = true)
    {s s' : PatternState} (hState : SameState u s s') :
    SameState u (is.foldl (readPattern u) s)
      ((is.map u.rank).foldl (UnusedNames.readPattern u.code) s') := by
  induction is generalizing s s' with
  | nil => exact hState
  | cons i is ih =>
    rw [List.forall_mem_cons] at hAll
    exact ih hAll.2 (sameState_readPattern h hState hAll.1)

omit h in
theorem filter_range_between {a b n : Nat} (hb : b ≤ n) :
    (List.range n).filter (fun p => a < p && p < b) = List.range' (a + 1) (b - (a + 1)) := by
  refine List.Pairwise.eq_of_mem_iff (r := (· < ·)) (List.pairwise_lt_range.filter _)
    List.pairwise_lt_range' fun p => ?_
  simp only [List.mem_filter, List.mem_range, List.mem_range'_1, Bool.and_eq_true,
    decide_eq_true_eq]
  omega

omit h in
/-- The places inside a pair of brackets. -/
theorem map_rank_between {opener close : Nat} (ho : u.isSignificant opener)
    (hc : u.isSignificant close) :
    (u.significant.filter fun i => opener < i && i < close).map u.rank =
      List.range' (u.rank opener + 1) (u.rank close - (u.rank opener + 1)) := by
  have hLt {i j : Nat} (hi : u.isSignificant i) : u.rank i < u.rank j ↔ i < j := by
    rw [isSignificant_eq] at hi
    rw [rank_eq, rank_eq]
    exact rankIn_lt_iff hi
  rw [← filter_range_between (Nat.le_of_lt (rank_lt_size hc)),
    show List.range u.code.size = u.significant.map u.rank from (map_rank_significant u).symm,
    List.filter_map]
  congr 1
  apply List.filter_congr
  intro i hMem
  have hi : u.isSignificant i = true := (List.mem_filter.mp hMem).2
  simp only [Function.comp_apply, hLt ho, hLt hi]

theorem sameBindings_pattern {opener close : Nat} (ho : u.isSignificant opener)
    (hc : u.isSignificant close) :
    List.Forall₂ (SameBinding u) (patternBindings u opener close)
      (UnusedNames.patternBindings u.code (u.rank opener) (u.rank close)) := by
  rw [patternBindings, UnusedNames.patternBindings, ← map_rank_between ho hc]
  refine List.forall₂_reverse_iff.mpr (sameState_foldl h ?_ ⟨.none, .nil⟩).bound
  intro i hMem
  exact (List.mem_filter.mp (List.mem_filter.mp hMem).1).2

theorem sameBindings_declarators (hScope : u.Located scope scope') (fuel : Nat)
    (hi : u.isSignificant i) :
    List.Forall₂ (SameBinding u) (declarators u scope fuel i)
      (UnusedNames.declarators u.code scope' fuel (u.rank i)) := by
  induction fuel generalizing i with
  | zero => exact .nil
  | succ fuel ih =>
    have hEnd : u.Located (scope.bind u.matching) (scope'.bind u.code.matching) :=
      hScope.step fun _ => h.located_matching
    have hOnwards (last : Nat) (hLast : u.isSignificant last) :
        List.Forall₂ (SameBinding u)
          (match nextDeclarator u scope (scope.bind u.matching) last with
            | some n => declarators u scope fuel n
            | none => [])
          (match UnusedNames.nextDeclarator u.code scope' (scope'.bind u.code.matching)
              (u.code.size - (u.rank last + 1)) (u.rank last) with
            | some q => UnusedNames.declarators u.code scope' fuel q
            | none => []) := by
      have hInside := rank_lt_size hLast
      have hNext := located_nextDeclarator h hScope hEnd
        (u.code.size - (u.rank last + 1)) last hLast (by omega)
      rcases hNext.cases with ⟨hNone, hCode⟩ | ⟨n, hSome, hCode, hn⟩
      · rw [hNone, hCode]
        exact .nil
      · rw [hSome, hCode]
        exact ih hn
    rw [declarators, UnusedNames.declarators, isKind_rank h hi, isPunct_rank h hi, isPunct_rank h hi,
      assigns_rank h hi]
    split
    · exact .cons ⟨rfl, rfl, hi⟩ (hOnwards i hi)
    · split
      · rcases (h.located_matching hi).cases with ⟨hNone, hCode⟩ | ⟨close, hSome, hCode, hClose⟩
        · rw [hNone, hCode]
          exact .nil
        · rw [hSome, hCode]
          exact List.rel_append (sameBindings_pattern h hi hClose) (hOnwards close hClose)
      · exact .nil

theorem at?_end (hi : u.isSignificant i) (hNone : u.nextSignificant i = none) :
    u.code.at? (u.rank i + 1) = none := by
  rw [at?_succ_rank h hi, after?, hNone, Option.bind_none]

omit h in
theorem importNames_end {c : Code} {p : Nat} (hEnd : c.at? p = none) (outer : Option Nat)
    (left : Nat) : UnusedNames.importNames c outer left p = [] := by
  cases left with
  | zero => rfl
  | succ left => rw [UnusedNames.importNames, hEnd]

omit h in
theorem declarators_end {c : Code} {p : Nat} (hEnd : c.at? p = none) (scope : Option Nat)
    (fuel : Nat) : UnusedNames.declarators c scope fuel p = [] := by
  cases fuel with
  | zero => rfl
  | succ fuel => simp [UnusedNames.declarators, Code.isKind, Code.isPunct, hEnd]

theorem sameBindings_importNames (hScope : u.Located scope scope') (left : Nat)
    (hi : u.isSignificant i) (hLeft : u.code.size ≤ u.rank i + left) :
    List.Forall₂ (SameBinding u) (importNames u scope i)
      (UnusedNames.importNames u.code scope' left (u.rank i)) := by
  induction left generalizing i with
  | zero =>
    have hInside := rank_lt_size hi
    omega
  | succ left ih =>
    have hRest : List.Forall₂ (SameBinding u)
        (match _hNext : u.nextSignificant i with
          | none => []
          | some n => importNames u scope n)
        (UnusedNames.importNames u.code scope' left (u.rank i + 1)) := by
      split
      · rename_i hNone
        rw [importNames_end (at?_end h hi hNone)]
        exact .nil
      · rename_i n hNext
        rw [← rank_of_next h hi hNext]
        refine ih (isSignificant_of_next hNext) ?_
        rw [rank_of_next h hi hNext]
        omega
    have hOwn := (h.located_parent hi).eq_iff hScope
    rw [importNames, UnusedNames.importNames, at?_rank h hi, Code.after?, at?_succ_rank h hi,
      isKind_succ_rank h hi]
    cases lexeme? u i with
    | none => exact .nil
    | some l =>
      simp only [hOwn]
      split
      · exact .nil
      · split
        · split
          · exact .nil
          · split
            · exact hRest
            · exact .cons ⟨rfl, rfl, hi⟩ hRest
        · exact hRest

omit h in
theorem bindingsAt_end {c : Code} {p : Nat} (hEnd : c.at? (p + 1) = none) :
    UnusedNames.bindingsAt c p = [] := by
  have hKind (kind : TokenKind) : c.isKind (p + 1) kind = false := by rw [Code.isKind, hEnd]; rfl
  rw [UnusedNames.bindingsAt]
  split
  · rfl
  · split
    · split
      all_goals simp only [declarators_end hEnd, importNames_end hEnd, hKind, Bool.false_and,
        Bool.false_eq_true, if_false, ite_self]
    · rfl

omit h in
theorem length_significant (u : SourceUnit) : u.significant.length = u.code.size := by
  rw [← List.length_map u.rank, map_rank_significant, Code.positions, List.length_range]

section Introduced

variable (hi : u.isSignificant i) (hNext : u.nextSignificant i = some n)
include hi hNext

theorem sameBindings_variables :
    List.Forall₂ (SameBinding u)
      (if isExported u i then [] else declarators u (u.parent i) u.significant.length n)
      (if UnusedNames.isExported u.code (u.rank i) then []
        else UnusedNames.declarators u.code (u.code.parent (u.rank i)) u.code.size
          (u.rank i + 1)) := by
  rw [isExported_rank h hi, ← rank_of_next h hi hNext, length_significant]
  split
  · exact .nil
  · exact sameBindings_declarators h (h.located_parent hi) _ (isSignificant_of_next hNext)

theorem sameBindings_definition :
    List.Forall₂ (SameBinding u)
      (if isKind u n .identifier && startsStatement u i && !isExported u i then [⟨n, false⟩]
        else [])
      (if u.code.isKind (u.rank i + 1) .identifier &&
          UnusedNames.startsStatement u.code (u.rank i) &&
          !UnusedNames.isExported u.code (u.rank i) then [⟨u.rank i + 1, false⟩]
        else []) := by
  have hn := isSignificant_of_next hNext
  rw [isExported_rank h hi, startsStatement_rank h hi, ← rank_of_next h hi hNext, isKind_rank h hn]
  split
  · exact .cons ⟨rfl, rfl, hn⟩ .nil
  · exact .nil

theorem sameBindings_imports :
    List.Forall₂ (SameBinding u)
      (if isPunct u n "(" || isPunct u n "." then [] else importNames u (u.parent i) n)
      (if u.code.isPunct (u.rank i + 1) "(" || u.code.isPunct (u.rank i + 1) "." then []
        else UnusedNames.importNames u.code (u.code.parent (u.rank i)) u.code.size
          (u.rank i + 1)) := by
  have hn := isSignificant_of_next hNext
  rw [← rank_of_next h hi hNext, isPunct_rank h hn, isPunct_rank h hn]
  split
  · exact .nil
  · exact sameBindings_importNames h (h.located_parent hi) _ hn (Nat.le_add_left _ _)

end Introduced

theorem sameBindings_bindingsAt (hi : u.isSignificant i) :
    List.Forall₂ (SameBinding u) (bindingsAt u i) (UnusedNames.bindingsAt u.code (u.rank i)) := by
  cases hNext : u.nextSignificant i with
  | none =>
    rw [bindingsAt_end (at?_end h hi hNext), bindingsAt, hNext]
    cases lexeme? u i <;> exact .nil
  | some n =>
    rw [bindingsAt, UnusedNames.bindingsAt, at?_rank h hi, hNext]
    cases lexeme? u i with
    | none => exact .nil
    | some l =>
      dsimp only
      split
      · generalize l.text = word
        split
        · exact sameBindings_variables h hi hNext
        · exact sameBindings_variables h hi hNext
        · exact sameBindings_variables h hi hNext
        · exact sameBindings_definition h hi hNext
        · exact sameBindings_definition h hi hNext
        · exact sameBindings_imports h hi hNext
        · -- no other keyword introduces a name
          try simp only [*]
          exact .nil
      · exact .nil

theorem sameBindings_collectBindings :
    List.Forall₂ (SameBinding u) (collectBindings u) (UnusedNames.collectBindings u.code) := by
  rw [collectBindings, UnusedNames.collectBindings, ← map_rank_significant, List.flatMap_map]
  have hAll : ∀ i ∈ u.significant, u.isSignificant i = true :=
    fun i hMem => (List.mem_filter.mp hMem).2
  generalize u.significant = is at hAll ⊢
  induction is with
  | nil => exact .nil
  | cons i is ih =>
    rw [List.forall_mem_cons] at hAll
    exact List.rel_append (sameBindings_bindingsAt h hAll.1) (ih hAll.2)

/-! ## Uses in the code -/

theorem isReference_rank (hi : u.isSignificant i) :
    UnusedNames.isReference u.code (u.rank i) = isReference u i := by
  have hObject : (u.code.parent (u.rank i)).any (fun o => u.code.braceKind o = some .object) =
      (u.parent i).any fun o => u.braceKind o = some .object :=
    (h.located_parent hi).any fun o ho => by rw [braceKind_rank h ho]
  rw [UnusedNames.isReference, isReference, UnusedNames.isKey, isKey, hObject, before?_rank h hi,
    Code.after?, at?_succ_rank h hi, isPunct_succ_rank h hi, isPunct_succ_rank h hi]

omit h in
theorem mem_positions_iff {bs bs' : List Binding} (hSame : List.Forall₂ (SameBinding u) bs bs')
    (hi : u.isSignificant i) :
    u.rank i ∈ bs'.map (·.position) ↔ i ∈ bs.map (·.position) := by
  induction hSame with
  | nil => simp
  | cons hHead _ ih =>
    rw [List.map_cons, List.map_cons, List.mem_cons, List.mem_cons, ih, hHead.position]
    exact or_congr_left ⟨rank_inj hi hHead.significant, congrArg u.rank⟩

theorem usedNames_eq {bs bs' : List Binding} (hSame : List.Forall₂ (SameBinding u) bs bs') :
    UnusedNames.usedNames u.code (bs'.map (·.position)) = usedNames u (bs.map (·.position)) := by
  rw [UnusedNames.usedNames, usedNames, ← map_rank_significant, List.flatMap_map]
  apply List.flatMap_congr
  intro i hMem
  have hi : u.isSignificant i = true := (List.mem_filter.mp hMem).2
  rw [at?_rank h hi, isReference_rank h hi]
  simp only [mem_positions_iff hSame hi]
  rfl

theorem filterMap_unused {bs bs' : List Binding} (hSame : List.Forall₂ (SameBinding u) bs bs')
    (used : List String) :
    (bs'.filterMap (site? u.code used)).filterMap (Site.locate? u.significantTokens) =
      bs.filterMap (unused? u used) := by
  rw [List.filterMap_filterMap]
  induction hSame with
  | nil => rfl
  | @cons b b' bs bs' hHead _ ih =>
    have hOne :
        (site? u.code used b').bind (Site.locate? u.significantTokens) = unused? u used b := by
      have hStart := locate?_start hHead.significant
      rw [site?, unused?, hHead.position, hHead.assigned, at?_rank h hHead.significant, lexeme?]
      cases hToken : u.token? b.position with
      | none => rfl
      | some t =>
        simp only [Option.map_some, Option.bind_some]
        split
        · rfl
        · split <;> rw [Option.bind_some, hStart, hToken] <;> rfl
    rw [List.filterMap_cons, List.filterMap_cons, hOne, ih]

theorem unusedNames_eq (options : Options) :
    UnusedNames.rule.check u options = unusedNames u options := by
  have hBindings := sameBindings_collectBindings h
  rw [UnusedNames.rule, check_onCode, sites, unusedNames, usedNames_eq h hBindings]
  exact filterMap_unused h hBindings _

end Bindings

end OnTokens

end RuleScout
