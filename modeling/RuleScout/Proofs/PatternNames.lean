import Mathlib.Data.List.Pairwise
import RuleScout.Proofs.CodeBrackets

/-!
# Names bound by destructuring patterns

The names of a pattern are read in one pass over its lexemes, which knows nothing of patterns but
the default value that is being skipped. A pattern has a grammar: targets nested in arrays and
objects, keys, rest elements, and default values in which brackets pair up and no comma stands
outside of them. The pass reads exactly the names that the grammar binds, apart from one thing: it
goes into computed keys, and takes what stands there for a part of the pattern.
-/

set_option autoImplicit false

namespace RuleScout.UnusedNames

open Code

/-! ## The grammar of patterns -/

/-- An expression in which no comma stands outside of brackets. -/
inductive Expression (c : Code) : Nat → Nat → Prop where
  | done {i : Nat} : Expression c i i
  | plain {i j : Nat} (hSingle : c.matching i = none) (hComma : c.isPunct i "," = false)
      (hRest : Expression c (i + 1) j) : Expression c i j
  | group {i k j : Nat} (hPair : c.Pair i k) (hRest : Expression c (k + 1) j) : Expression c i j

inductive Role where
  | name
  | key
  | computedKey
  | value
  deriving DecidableEq, Repr

/-- A name that is bound, a key or a default value, from `start` up to `stop`. -/
structure Part where
  role : Role
  start : Nat
  stop : Nat
  deriving DecidableEq, Repr

inductive Key (c : Code) : Nat → Part → Prop where
  | word {i : Nat} (kind : TokenKind) (hKind : c.isKind i kind = true)
      (hWord : kind ∈ [.identifier, .keyword, .string, .number]) : Key c i ⟨.key, i, i + 1⟩
  | computed {i k : Nat} (hOpening : c.isPunct i "[" = true) (hPair : c.Pair i k) :
      Key c i ⟨.computedKey, i, k + 1⟩

inductive Shape where
  | array
  | object
  deriving DecidableEq, Repr

def Shape.bracket : Shape → Bracket
  | .array => .square
  | .object => .curly

inductive Form where
  | target
  | element
  | item (s : Shape)
  | items (s : Shape)
  deriving DecidableEq, Repr

/-- The lexemes from `i` up to `j` are of the form and have the parts. An element is a target that
may have a default value. -/
inductive Binds (c : Code) : Form → Nat → Nat → List Part → Prop where
  | name {p : Nat} (hName : c.isKind p .identifier = true) :
      Binds c .target p (p + 1) [⟨.name, p, p + 1⟩]
  | nested (s : Shape) {i k : Nat} {ps : List Part}
      (hOpening : c.isPunct i s.bracket.opening = true) (hItems : Binds c (.items s) (i + 1) k ps)
      (hClosing : c.isPunct k s.bracket.closing = true) : Binds c .target i (k + 1) ps
  | bare {i j : Nat} {ps : List Part} (hTarget : Binds c .target i j ps) : Binds c .element i j ps
  | withDefault {i j k : Nat} {ps : List Part} (hTarget : Binds c .target i j ps)
      (hAssign : c.isPunct j "=" = true) (hValue : Expression c (j + 1) k) :
      Binds c .element i k (ps ++ [⟨.value, j + 1, k⟩])
  | entry {i j : Nat} {ps : List Part} (hElement : Binds c .element i j ps) :
      Binds c (.item .array) i j ps
  | shorthand {i j : Nat} {ps : List Part} (hName : c.isKind i .identifier = true)
      (hElement : Binds c .element i j ps) : Binds c (.item .object) i j ps
  | keyed {i k : Nat} {key : Part} {ps : List Part} (hKey : Key c i key)
      (hColon : c.isPunct key.stop ":" = true) (hElement : Binds c .element (key.stop + 1) k ps) :
      Binds c (.item .object) i k (key :: ps)
  | rest (s : Shape) {i j : Nat} {ps : List Part} (hDots : c.isPunct i "..." = true)
      (hTarget : Binds c .target (i + 1) j ps) : Binds c (.item s) i j ps
  | noItem (s : Shape) {i : Nat} : Binds c (.items s) i i []
  | hole {i j : Nat} {ps : List Part} (hComma : c.isPunct i "," = true)
      (hItems : Binds c (.items .array) (i + 1) j ps) : Binds c (.items .array) i j ps
  | last {s : Shape} {i j : Nat} {ps : List Part} (hItem : Binds c (.item s) i j ps) :
      Binds c (.items s) i j ps
  | more {s : Shape} {i j k : Nat} {ps qs : List Part} (hItem : Binds c (.item s) i j ps)
      (hComma : c.isPunct j "," = true) (hItems : Binds c (.items s) (j + 1) k qs) :
      Binds c (.items s) i k (ps ++ qs)

/-- The names that a pattern binds. -/
def boundNames (ps : List Part) : List Nat :=
  (ps.filter (·.role = .name)).map (·.start)

/-- What the pass over a pattern collects in a part of it. -/
def Part.collected (c : Code) (part : Part) : List Binding :=
  match part.role with
  | .name => [⟨part.start, true⟩]
  | .computedKey => patternBindings c part.start (part.stop - 1)
  | .key | .value => []

variable {c : Code} {f : Form} {s : Shape} {i j k o p q d : Nat} {ps : List Part}
  {scope : Option Nat} {acc : List Binding} {state : PatternState}

/-! ## Patterns keep to pairs of brackets -/

theorem Expression.le (h : Expression c i j) : i ≤ j := by
  induction h with
  | done => exact Nat.le_refl _
  | plain _ _ _ ih => omega
  | group hPair _ ih =>
    have hLt := hPair.lt
    omega

theorem Key.lt_stop {key : Part} (h : Key c i key) : key.start = i ∧ i < key.stop := by
  cases h with
  | word => exact ⟨rfl, Nat.lt_succ_self i⟩
  | computed _ hPair => exact ⟨rfl, Nat.lt_succ_of_lt hPair.lt⟩

theorem Binds.le (h : Binds c f i j ps) : i ≤ j := by
  induction h with
  | name => exact Nat.le_succ _
  | keyed hKey _ _ ih =>
    have hLt := hKey.lt_stop.2
    omega
  | withDefault _ _ hValue ih =>
    have hLe := hValue.le
    omega
  | _ => omega

section Whole

variable (hFits : c.Fits)
include hFits

theorem Expression.whole (h : Expression c i j) : c.Whole i j := by
  induction h with
  | done => exact whole_self c _
  | plain hSingle _ hRest ih =>
    exact (hFits.whole_single hSingle).append ih (Nat.le_succ _) hRest.le
  | group hPair hRest ih =>
    exact (hFits.whole_pair hPair).append ih (Nat.le_succ_of_le hPair.lt.le) hRest.le

theorem Key.whole {key : Part} (h : Key c i key) : c.Whole i key.stop := by
  cases h with
  | word kind hKind hWord =>
    apply hFits.whole_single
    apply hFits.matching_of_isKind hKind
    rintro rfl
    simp at hWord
  | computed _ hPair => exact hFits.whole_pair hPair

theorem Binds.whole (h : Binds c f i j ps) : c.Whole i j := by
  induction h with
  | name hName => exact hFits.whole_single (hFits.matching_of_isKind hName (by decide))
  | nested s hOpening hItems hClosing ih =>
    exact hFits.whole_pair (hFits.pair_around hOpening hClosing hItems.le ih)
  | withDefault hTarget hAssign hValue ih =>
    have hSign := hFits.whole_of_isPunct hAssign (by decide)
    exact (ih.append hSign hTarget.le (Nat.le_succ _)).append (hValue.whole hFits)
      (Nat.le_succ_of_le hTarget.le) hValue.le
  | keyed hKey hColon hElement ih =>
    have hSign := hFits.whole_of_isPunct hColon (by decide)
    exact ((hKey.whole hFits).append hSign hKey.lt_stop.2.le (Nat.le_succ _)).append ih
      (Nat.le_succ_of_le hKey.lt_stop.2.le) hElement.le
  | rest s hDots hTarget ih =>
    exact (hFits.whole_of_isPunct hDots (by decide)).append ih (Nat.le_succ _) hTarget.le
  | noItem => exact whole_self c _
  | hole hComma hItems ih =>
    exact (hFits.whole_of_isPunct hComma (by decide)).append ih (Nat.le_succ _) hItems.le
  | more hItem hComma hItems ihItem ihItems =>
    have hSign := hFits.whole_of_isPunct hComma (by decide)
    exact (ihItem.append hSign hItem.le (Nat.le_succ _)).append ihItems
      (Nat.le_succ_of_le hItem.le) hItems.le
  | bare _ ih | entry _ ih | shorthand _ _ ih | last _ ih => exact ih

end Whole

/-! ## One step of the pass -/

/-- The pass over the lexemes from `i` up to `j`. -/
def readOver (c : Code) (state : PatternState) (i j : Nat) : PatternState :=
  (List.range' i (j - i)).foldl (readPattern c) state

@[simp] theorem readOver_self : readOver c state i i = state := by
  simp [readOver]

theorem readOver_append (hik : i ≤ k) (hkj : k ≤ j) :
    readOver c state i j = readOver c (readOver c state i k) k j := by
  have hRange : List.range' i (j - i) = List.range' i (k - i) ++ List.range' k (j - k) := by
    rw [← Nat.sub_add_sub_cancel hkj hik, Nat.add_comm, ← List.range'_append_1,
      Nat.add_sub_cancel' hik]
  rw [readOver, hRange, List.foldl_append]
  rfl

theorem readOver_step (hij : i < j) :
    readOver c state i j = readOver c (readPattern c state i) (i + 1) j := by
  rw [readOver_append (Nat.le_succ i) hij]
  simp [readOver]

theorem readOver_succ (hij : i ≤ j) :
    readOver c state i (j + 1) = readPattern c (readOver c state i j) j := by
  rw [readOver_append hij (Nat.le_succ j)]
  simp [readOver]

theorem patternBindings_eq (o k : Nat) :
    patternBindings c o k = (readOver c ⟨none, []⟩ (o + 1) k).bound.reverse := rfl

theorem readPattern_name (hName : c.isKind p .identifier = true)
    (hNext : c.isPunct (p + 1) ":" = false) :
    readPattern c ⟨none, acc⟩ p = ⟨none, ⟨p, true⟩ :: acc⟩ := by
  simp [readPattern, hName, hNext, isPunct_of_isKind hName]

theorem readPattern_word (hNext : c.isPunct (p + 1) ":" = true)
    (hAssign : c.isPunct p "=" = false) : readPattern c ⟨none, acc⟩ p = ⟨none, acc⟩ := by
  simp [readPattern, hNext, hAssign]

theorem readPattern_punct {text : String} (hPunct : c.isPunct p text = true)
    (hAssign : text ≠ "=") : readPattern c ⟨none, acc⟩ p = ⟨none, acc⟩ := by
  simp [readPattern, isPunct_of_isPunct hPunct hAssign, isKind_of_isPunct hPunct]

theorem readPattern_assign (hAssign : c.isPunct p "=" = true) :
    readPattern c ⟨none, acc⟩ p = ⟨some (c.parent p), acc⟩ := by
  simp [readPattern, hAssign]

theorem readPattern_comma (hComma : c.isPunct p "," = true) (hParent : c.parent p = scope)
    {pending : Option (Option Nat)} (hPending : pending = none ∨ pending = some scope) :
    readPattern c ⟨pending, acc⟩ p = ⟨none, acc⟩ := by
  rcases hPending with rfl | rfl
  · exact readPattern_punct hComma (by decide)
  · simp [readPattern, hComma, hParent]

theorem readPattern_closing {b : Bracket} (hPair : c.Pair o k)
    (hClosing : c.isPunct k b.closing = true) {pending : Option (Option Nat)}
    (hPending : pending = none ∨ pending = some (some o)) :
    readPattern c ⟨pending, acc⟩ k = ⟨none, acc⟩ := by
  rcases hPending with rfl | rfl
  · apply readPattern_punct hClosing
    cases b <;> decide
  · simp [readPattern, hPair.matching]

theorem readPattern_skip (hComma : c.isPunct p "," = true → c.parent p ≠ some o)
    (hPair : c.Pair o k) (hp : p < k) :
    readPattern c ⟨some (some o), acc⟩ p = ⟨some (some o), acc⟩ := by
  have hOther : k ≠ p := by omega
  simpa [readPattern, hPair.matching, hOther] using hComma

/-! ## Default values are skipped -/

theorem Expression.not_comma (hFits : c.Fits) (h : Expression c i j) (ho : o < i) (hip : i ≤ p)
    (hpj : p < j) (hComma : c.isPunct p "," = true) : c.parent p ≠ some o := by
  induction h with
  | done => omega
  | @plain i j hSingle hOther hRest ih =>
    apply ih (by omega)
    · refine Nat.lt_of_le_of_ne hip ?_
      rintro rfl
      rw [hOther] at hComma
      cases hComma
    · exact hpj
  | @group i k j hPair hRest ih =>
    have hLt := hPair.lt
    rcases Nat.lt_or_ge k p with hkp | hpk
    · exact ih (by omega) hkp hpj
    · -- a comma is no bracket, so it stands between the two sides
      have hSides :=
        hFits.ne_of_matching_eq_none hPair (hFits.matching_of_isPunct hComma (by decide))
      obtain ⟨q, d, hParent, -, hiq, -⟩ := hFits.exists_parent hPair (p := p) (by omega) (by omega)
      rw [hParent, ne_eq, Option.some_inj]
      omega

theorem readOver_skip (hPair : c.Pair o k)
    (hComma : ∀ p, i ≤ p → p < j → c.isPunct p "," = true → c.parent p ≠ some o) (hij : i ≤ j)
    (hjk : j ≤ k) : readOver c ⟨some (some o), acc⟩ i j = ⟨some (some o), acc⟩ := by
  induction j, hij using Nat.le_induction with
  | base => exact readOver_self
  | succ j hij ih =>
    rw [readOver_succ hij, ih (fun p hip hpj => hComma p hip (by omega)) (by omega)]
    exact readPattern_skip (hComma j hij (Nat.lt_succ_self j)) hPair hjk

theorem Expression.readOver (hFits : c.Fits) (h : Expression c i j) (hInside : c.Inside o k i)
    (hjk : j ≤ k) : readOver c ⟨some (some o), acc⟩ i j = ⟨some (some o), acc⟩ :=
  readOver_skip hInside.pair (fun _ => h.not_comma hFits hInside.lt) h.le hjk

/-! ## Behind a bracket no default value is skipped -/

theorem readPattern_more (pending : Option (Option Nat)) (bound : List Binding) :
    readPattern c ⟨pending, bound ++ acc⟩ p =
      ⟨(readPattern c ⟨pending, bound⟩ p).defaultScope,
        (readPattern c ⟨pending, bound⟩ p).bound ++ acc⟩ := by
  cases pending with
  | none =>
    simp only [readPattern]
    split
    · rfl
    · split <;> rfl
  | some scope =>
    simp only [readPattern]
    split <;> rfl

/-- What is bound already is kept and has no part in the rest of the pass. -/
theorem readOver_more (state : PatternState) (acc : List Binding) (hij : i ≤ j) :
    readOver c ⟨state.defaultScope, state.bound ++ acc⟩ i j =
      ⟨(readOver c state i j).defaultScope, (readOver c state i j).bound ++ acc⟩ := by
  induction j, hij using Nat.le_induction with
  | base => simp
  | succ j hij ih => rw [readOver_succ hij, readOver_succ hij, ih, readPattern_more]

/-- A default value that is skipped inside a pair of brackets belongs to a pair there that is
still open. -/
def Pending (c : Code) (o p : Nat) (pending : Option (Option Nat)) : Prop :=
  ∀ scope, pending = some scope → ∃ q d, scope = some q ∧ c.Pair q d ∧ o ≤ q ∧ q < p ∧ p ≤ d

theorem pending_step (hFits : c.Fits) (hPair : c.Pair o k) (hop : o < p) (hpk : p < k)
    (h : Pending c o p state.defaultScope) :
    Pending c o (p + 1) (readPattern c state p).defaultScope := by
  obtain ⟨pending, bound⟩ := state
  intro scope hScope
  cases pending with
  | none =>
    obtain ⟨q, d, hParent, hInner, hoq, hqp, hpd, -⟩ := hFits.exists_parent hPair hop hpk
    simp only [readPattern, hParent] at hScope
    split at hScope
    · cases hScope
      exact ⟨q, d, rfl, hInner, hoq, by omega, hpd⟩
    · split at hScope <;> cases hScope
  | some own =>
    obtain ⟨q, d, rfl, hInner, hoq, hqp, hpd⟩ := h own rfl
    simp only [readPattern, Option.bind_some, hInner.matching, Option.some_inj] at hScope
    split at hScope
    · cases hScope
    · rename_i hStays
      cases hScope
      refine ⟨q, d, rfl, hInner, hoq, by omega, ?_⟩
      have hNe : d ≠ p := fun hEq => hStays (by simp [hEq])
      omega

theorem pending_readOver (acc : List Binding) (hFits : c.Fits) (hPair : c.Pair o k)
    (hoj : o + 1 ≤ j) (hjk : j ≤ k) :
    Pending c o j (readOver c ⟨none, acc⟩ (o + 1) j).defaultScope := by
  induction j, hoj using Nat.le_induction with
  | base =>
    rw [readOver_self]
    intro scope hScope
    cases hScope
  | succ j hoj ih =>
    rw [readOver_succ hoj]
    exact pending_step hFits hPair hoj hjk (ih (by omega))

/-- A pair of brackets gives what it gives by itself, and behind it no default value is skipped. -/
theorem readOver_pair (hFits : c.Fits) (hPair : c.Pair o k) :
    readOver c ⟨none, acc⟩ o (k + 1) = ⟨none, (patternBindings c o k).reverse ++ acc⟩ := by
  obtain ⟨b, hOpening, hClosing⟩ := hFits.sort hPair
  have hOpens : readPattern c ⟨none, acc⟩ o = ⟨none, acc⟩ := by
    apply readPattern_punct hOpening
    cases b <;> decide
  have hMore := readOver_more (c := c) ⟨none, []⟩ acc hPair.lt
  have hPending := pending_readOver acc hFits hPair hPair.lt (Nat.le_refl k)
  rw [List.nil_append] at hMore
  rw [readOver_step (Nat.lt_succ_of_lt hPair.lt), hOpens, readOver_succ hPair.lt]
  rw [hMore] at hPending ⊢
  rw [patternBindings_eq, List.reverse_reverse]
  apply readPattern_closing hPair hClosing
  cases hScope : (readOver c ⟨none, []⟩ (o + 1) k).defaultScope with
  | none => exact .inl rfl
  | some scope =>
    -- a pair that is open at the closing bracket, and not around it, is the one it closes
    obtain ⟨q, d, rfl, hInner, hoq, hqk, hkd⟩ := hPending scope hScope
    rcases Nat.eq_or_lt_of_le hoq with rfl | hoq
    · exact .inr rfl
    · have hBefore := hFits.not_cross hPair hInner hoq hqk
      omega

/-! ## What the pass collects -/

theorem Key.readOver {key : Part} (hFits : c.Fits) (h : Key c i key)
    (hColon : c.isPunct key.stop ":" = true) :
    readOver c ⟨none, acc⟩ i key.stop = ⟨none, (key.collected c).reverse ++ acc⟩ := by
  cases h with
  | word kind hKind hWord =>
    have hAssign : c.isPunct i "=" = false := by
      apply isPunct_of_isKind hKind
      rintro rfl
      simp at hWord
    rw [readOver_step (Nat.lt_succ_self i), readOver_self, readPattern_word hColon hAssign]
    rfl
  | computed _ hPair => exact readOver_pair hFits hPair

/-- What the pass leaves directly inside the pair of brackets at `o`. -/
def Leaves (c : Code) (o i j : Nat) (ps : List Part) : Prop :=
  ∀ acc, ∃ pending, (pending = none ∨ pending = some (some o)) ∧
    readOver c ⟨none, acc⟩ i j = ⟨pending, (ps.flatMap (Part.collected c)).reverse ++ acc⟩

def Collects (c : Code) : Form → Nat → Nat → List Part → Prop
  | .target, i, j, ps => ∀ acc,
    readOver c ⟨none, acc⟩ i j = ⟨none, (ps.flatMap (Part.collected c)).reverse ++ acc⟩
  | _, i, j, ps => ∀ o k, c.Inside o k i → j ≤ k → Leaves c o i j ps

theorem Leaves.behind {ps qs : List Part} (hStart : ∀ acc,
    readOver c ⟨none, acc⟩ i j = ⟨none, (ps.flatMap (Part.collected c)).reverse ++ acc⟩)
    (hij : i ≤ j) (hjk : j ≤ k) (h : Leaves c o j k qs) : Leaves c o i k (ps ++ qs) := by
  intro acc
  obtain ⟨pending, hPending, hRead⟩ := h ((ps.flatMap (Part.collected c)).reverse ++ acc)
  refine ⟨pending, hPending, ?_⟩
  rw [readOver_append hij hjk, hStart, hRead]
  simp

theorem readOver_punct {text : String} (hPunct : c.isPunct p text = true) (hAssign : text ≠ "=") :
    readOver c ⟨none, acc⟩ p (p + 1) = ⟨none, acc⟩ := by
  rw [readOver_step (Nat.lt_succ_self p), readOver_self, readPattern_punct hPunct hAssign]

theorem nested_collected (hFits : c.Fits) (hOpening : c.isPunct i s.bracket.opening = true)
    (hItems : Binds c (.items s) (i + 1) k ps) (hClosing : c.isPunct k s.bracket.closing = true)
    (hCollects : Collects c (.items s) (i + 1) k ps) :
    c.Pair i k ∧ patternBindings c i k = ps.flatMap (Part.collected c) := by
  have hPair := hFits.pair_around hOpening hClosing hItems.le (hItems.whole hFits)
  obtain ⟨pending, -, hRead⟩ := hCollects i k hPair.inside (Nat.le_refl k) []
  refine ⟨hPair, ?_⟩
  rw [patternBindings_eq, hRead]
  simp

theorem Binds.collects (hFits : c.Fits) (h : Binds c f i j ps) (hNext : c.isPunct j ":" = false) :
    Collects c f i j ps := by
  -- what stands behind matters: in front of a colon a name is a key
  induction h with
  | @name p hName =>
    intro acc
    rw [readOver_step (Nat.lt_succ_self p), readOver_self, readPattern_name hName hNext]
    rfl
  | @nested s i k ps hOpening hItems hClosing ih =>
    have hNotColon : c.isPunct k ":" = false := by
      apply isPunct_of_isPunct hClosing
      cases s <;> decide
    obtain ⟨hPair, hCollected⟩ := nested_collected hFits hOpening hItems hClosing (ih hNotColon)
    intro acc
    rw [readOver_pair hFits hPair, hCollected]
  | bare hTarget ih => exact fun o k _ _ acc => ⟨none, .inl rfl, ih hNext acc⟩
  | @withDefault i j l ps hTarget hAssign hValue ih =>
    intro o k hInside hlk acc
    have hjl := hValue.le
    have hij := hTarget.le
    have hSign := hInside.append (hTarget.whole hFits) hij (by omega)
    have hBehind := hSign.append (hFits.whole_of_isPunct hAssign (by decide)) (Nat.le_succ j)
      (by omega)
    refine ⟨some (some o), .inr rfl, ?_⟩
    rw [readOver_append hij (by omega), ih (isPunct_of_isPunct hAssign (by decide)),
      readOver_step hjl, readPattern_assign hAssign, hFits.parent_inside hSign (by omega),
      hValue.readOver hFits hBehind hlk]
    simp [Part.collected]
  | entry _ ih | shorthand _ _ ih | last _ ih => exact ih hNext
  | @keyed i l key ps hKey hColon hElement ih =>
    intro o k hInside hlk
    have hStop := hKey.lt_stop.2
    have hLe := hElement.le
    have hSign := hInside.append (hKey.whole hFits) hStop.le (by omega)
    have hBehind := hSign.append (hFits.whole_of_isPunct hColon (by decide)) (Nat.le_succ _)
      (by omega)
    have hFirst (acc : List Binding) : readOver c ⟨none, acc⟩ i (key.stop + 1) =
        ⟨none, ([key].flatMap (Part.collected c)).reverse ++ acc⟩ := by
      rw [readOver_append hStop.le (Nat.le_succ _), hKey.readOver hFits hColon,
        readOver_punct hColon (by decide), List.flatMap_singleton]
    exact Leaves.behind hFirst (by omega) hLe (ih hNext o k hBehind hlk)
  | @rest s i j ps hDots hTarget ih =>
    intro o k _ _ acc
    refine ⟨none, .inl rfl, ?_⟩
    rw [readOver_append (Nat.le_succ i) hTarget.le, readOver_punct hDots (by decide), ih hNext]
  | noItem s => exact fun o k _ _ acc => ⟨none, .inl rfl, readOver_self⟩
  | @hole i j ps hComma hItems ih =>
    intro o k hInside hjk
    have hLe := hItems.le
    have hBehind := hInside.append (hFits.whole_of_isPunct hComma (by decide)) (Nat.le_succ i)
      (by omega)
    have hFirst (acc : List Binding) : readOver c ⟨none, acc⟩ i (i + 1) =
        ⟨none, ([].flatMap (Part.collected c)).reverse ++ acc⟩ := readOver_punct hComma (by decide)
    exact Leaves.behind hFirst (Nat.le_succ i) hLe (ih hNext o k hBehind hjk)
  | @more s i j l ps qs hItem hComma hItems ihItem ihItems =>
    intro o k hInside hlk
    have hij := hItem.le
    have hLe := hItems.le
    have hSign := hInside.append (hItem.whole hFits) hij (by omega)
    have hBehind := hSign.append (hFits.whole_of_isPunct hComma (by decide)) (Nat.le_succ j)
      (by omega)
    have hFirst (acc : List Binding) : readOver c ⟨none, acc⟩ i (j + 1) =
        ⟨none, (ps.flatMap (Part.collected c)).reverse ++ acc⟩ := by
      obtain ⟨pending, hPending, hRead⟩ :=
        ihItem (isPunct_of_isPunct hComma (by decide)) o k hInside (by omega) acc
      rw [readOver_succ hij, hRead]
      exact readPattern_comma hComma (hFits.parent_inside hSign (by omega)) hPending
    exact Leaves.behind hFirst (by omega) hLe (ihItems hNext o k hBehind hlk)

/-! ## Parts in the order of the source -/

def Part.Covers (part : Part) (p : Nat) : Prop := part.start ≤ p ∧ p < part.stop

/-- The parts stand from `i` up to `j`, one behind the other. -/
structure Laid (i j : Nat) (ps : List Part) : Prop where
  front : ∀ part ∈ ps, i ≤ part.start
  behind : ∀ part ∈ ps, part.stop ≤ j
  names : ∀ part ∈ ps, part.role = .name → part.start < part.stop
  apart : ps.Pairwise fun before after => before.stop ≤ after.start

theorem Laid.nil : Laid i j [] where
  front part h := by cases h
  behind part h := by cases h
  names part h := by cases h
  apart := .nil

theorem Laid.single {part : Part} (hFront : i ≤ part.start) (hBehind : part.stop ≤ j)
    (hName : part.role = .name → part.start < part.stop) : Laid i j [part] where
  front := by simpa using hFront
  behind := by simpa using hBehind
  names := by simpa using hName
  apart := List.pairwise_singleton _ _

theorem Laid.append {ps qs : List Part} (h : Laid i k ps) (h' : Laid k j qs) (hik : i ≤ k)
    (hkj : k ≤ j) : Laid i j (ps ++ qs) where
  front part hPart := by
    rcases List.mem_append.mp hPart with hPart | hPart
    · exact h.front part hPart
    · exact hik.trans (h'.front part hPart)
  behind part hPart := by
    rcases List.mem_append.mp hPart with hPart | hPart
    · exact (h.behind part hPart).trans hkj
    · exact h'.behind part hPart
  names part hPart := by
    rcases List.mem_append.mp hPart with hPart | hPart
    · exact h.names part hPart
    · exact h'.names part hPart
  apart := List.pairwise_append.mpr ⟨h.apart, h'.apart, fun before hBefore after hAfter =>
    (h.behind before hBefore).trans (h'.front after hAfter)⟩

theorem Laid.widen {i' j' : Nat} (h : Laid i j ps) (hi : i' ≤ i) (hj : j ≤ j') :
    Laid i' j' ps where
  front part hPart := hi.trans (h.front part hPart)
  behind part hPart := (h.behind part hPart).trans hj
  names := h.names
  apart := h.apart

theorem Binds.laid (h : Binds c f i j ps) : Laid i j ps := by
  induction h with
  | @name p hName => exact .single (Nat.le_refl p) (Nat.le_refl _) fun _ => Nat.lt_succ_self p
  | nested s hOpening hItems hClosing ih => exact ih.widen (Nat.le_succ _) (Nat.le_succ _)
  | @withDefault i j l ps hTarget hAssign hValue ih =>
    have hLe := hValue.le
    exact ih.append (.single (Nat.le_succ j) (Nat.le_refl l) nofun) hTarget.le (by omega)
  | @keyed i l key ps hKey hColon hElement ih =>
    obtain ⟨hStart, hStop⟩ := hKey.lt_stop
    have hName : key.role = .name → key.start < key.stop := fun _ => hStart ▸ hStop
    have hLe := hElement.le
    have hFirst : Laid i key.stop [key] := .single hStart.ge (Nat.le_refl _) hName
    exact hFirst.append (ih.widen (Nat.le_succ _) (Nat.le_refl l)) hStop.le (by omega)
  | rest s hDots hTarget ih => exact ih.widen (Nat.le_succ _) (Nat.le_refl _)
  | noItem s => exact .nil
  | hole hComma hItems ih => exact ih.widen (Nat.le_succ _) (Nat.le_refl _)
  | @more s i j l ps qs hItem hComma hItems ihItem ihItems =>
    have hLe := hItems.le
    exact ihItem.append (ihItems.widen (Nat.le_succ j) (Nat.le_refl l)) hItem.le (by omega)
  | bare _ ih | entry _ ih | shorthand _ _ ih | last _ ih => exact ih

/-- A list of bindings of identifiers from `i` up to `j`, in the order of the source. -/
structure Listed (c : Code) (i j : Nat) (bs : List Binding) : Prop where
  range : ∀ b ∈ bs, i ≤ b.position ∧ b.position < j
  names : ∀ b ∈ bs, c.isKind b.position .identifier = true
  sorted : bs.Pairwise (·.position < ·.position)

theorem Listed.succ {bs : List Binding} (h : Listed c i j bs) : Listed c i (j + 1) bs where
  range b hb := (h.range b hb).imp_right Nat.lt_succ_of_lt
  names := h.names
  sorted := h.sorted

theorem Listed.concat {bs : List Binding} (h : Listed c i j bs) (hij : i ≤ j)
    (hName : c.isKind j .identifier = true) : Listed c i (j + 1) (bs ++ [⟨j, true⟩]) where
  range b hb := by
    rcases List.mem_append.mp hb with hb | hb
    · exact h.succ.range b hb
    · obtain rfl := List.mem_singleton.mp hb
      exact ⟨hij, Nat.lt_succ_self j⟩
  names b hb := by
    rcases List.mem_append.mp hb with hb | hb
    · exact h.names b hb
    · obtain rfl := List.mem_singleton.mp hb
      exact hName
  sorted := by
    refine List.pairwise_append.mpr ⟨h.sorted, List.pairwise_singleton _ _, fun b hb d hd => ?_⟩
    obtain rfl := List.mem_singleton.mp hd
    exact (h.range b hb).2

theorem listed_readOver (hij : i ≤ j) : Listed c i j (readOver c ⟨none, []⟩ i j).bound.reverse := by
  induction j, hij using Nat.le_induction with
  | base =>
    rw [readOver_self]
    exact ⟨nofun, nofun, .nil⟩
  | succ j hij ih =>
    rw [readOver_succ hij, readPattern]
    split
    · split <;> exact ih.succ
    · split
      · exact ih.succ
      · split
        · rename_i hName
          rw [List.reverse_cons]
          exact ih.concat hij (Bool.and_eq_true_iff.mp hName).1
        · exact ih.succ

theorem listed_patternBindings (hok : o < k) : Listed c (o + 1) k (patternBindings c o k) :=
  listed_readOver hok

/-! ## The names of a pattern -/

theorem covers_of_collected {part : Part} {b : Binding} (hb : b ∈ part.collected c)
    (hName : part.role = .name → part.start < part.stop) : part.Covers b.position := by
  rw [Part.collected] at hb
  split at hb
  · rename_i hRole
    obtain rfl := List.mem_singleton.mp hb
    exact ⟨Nat.le_refl _, hName hRole⟩
  · rcases Nat.lt_or_ge part.start (part.stop - 1) with hLt | hGe
    · have hRange := (listed_patternBindings hLt).range b hb
      constructor <;> omega
    · have hNone : part.stop - 1 - (part.start + 1) = 0 := by omega
      simp [patternBindings, hNone] at hb
  · cases hb
  · cases hb

/-- No name is collected in a key that is a word, or in a default value. -/
theorem Laid.not_covers {part : Part} {b : Binding} (h : Laid i j ps)
    (hb : b ∈ ps.flatMap (Part.collected c)) (hPart : part ∈ ps)
    (hRole : part.role = .key ∨ part.role = .value) : ¬part.Covers b.position := by
  obtain ⟨own, hOwn, hb⟩ := List.mem_flatMap.mp hb
  have hCovers := covers_of_collected hb (h.names own hOwn)
  have hNe : own ≠ part := by
    rintro rfl
    rcases hRole with hRole | hRole <;> simp [Part.collected, hRole] at hb
  let Apart (before after : Part) := before.stop ≤ after.start ∨ after.stop ≤ before.start
  have hSymm : Std.Symm Apart := ⟨fun _ _ => Or.symm⟩
  have hEither : ps.Pairwise Apart := h.apart.imp .inl
  have hApart := hEither.forall hOwn hPart hNe
  obtain ⟨hStart, hStop⟩ := hCovers
  rintro ⟨hStart', hStop'⟩
  omega

/-- What is read of a pattern between its brackets at `i` and `k`. -/
structure Reads (c : Code) (i k : Nat) (ps : List Part) : Prop where
  matching : c.matching i = some k
  collected : patternBindings c i k = ps.flatMap (Part.collected c)
  sorted : (patternBindings c i k).Pairwise (·.position < ·.position)
  skipped : ∀ b ∈ patternBindings c i k, ∀ part ∈ ps,
    part.role = .key ∨ part.role = .value → ¬part.Covers b.position
  bound : (∀ part ∈ ps, part.role = .computedKey →
      ∀ p, part.Covers p → c.isKind p .identifier = false) →
    patternBindings c i k = (boundNames ps).map (⟨·, true⟩)
  declared : ∀ scope fuel, patternBindings c i k <+: declarators c scope (fuel + 1) i

theorem patternBindings_of_none (hNone : ∀ p, o < p → p < k → c.isKind p .identifier = false) :
    patternBindings c o k = [] := by
  rcases Nat.lt_or_ge o k with hLt | hGe
  · refine List.eq_nil_iff_forall_not_mem.mpr fun b hb => ?_
    have hListed := listed_patternBindings (c := c) hLt
    obtain ⟨hStart, hStop⟩ := hListed.range b hb
    have hName := hListed.names b hb
    rw [hNone b.position hStart hStop] at hName
    cases hName
  · have hEmpty : k - (o + 1) = 0 := by omega
    simp [patternBindings, hEmpty]

theorem collected_eq_map_boundNames
    (hNone : ∀ part ∈ ps, part.role = .computedKey → part.collected c = []) :
    ps.flatMap (Part.collected c) = (boundNames ps).map (⟨·, true⟩) := by
  induction ps with
  | nil => rfl
  | cons part ps ih =>
    rw [List.flatMap_cons, ih fun other hOther => hNone other (List.mem_cons_of_mem part hOther)]
    have hOwn := hNone part List.mem_cons_self
    cases hRole : part.role <;> simp_all [boundNames, Part.collected]

/-- The walk behind a declarator that ends at `last`. -/
def onwards (c : Code) (scope : Option Nat) (fuel last : Nat) : List Binding :=
  match nextDeclarator c scope (scope.bind c.matching) (c.size - (last + 1)) last with
  | some t => declarators c scope fuel t
  | none => []

theorem declarators_bracket (hOpening : c.isPunct i s.bracket.opening = true)
    (hMatching : c.matching i = some k) (fuel : Nat) :
    declarators c scope (fuel + 1) i = patternBindings c i k ++ onwards c scope fuel k := by
  have hOpens : (c.isPunct i "\x7b" || c.isPunct i "[") = true := by
    cases s <;> simp_all [Shape.bracket, Bracket.opening]
  have hName : c.isKind i .identifier = false := isKind_of_isPunct hOpening (by decide)
  simp only [declarators, hName, if_pos hOpens, hMatching]
  rfl

/-- In every pattern of a unit that is parsed, the pass collects the bound names in the order of the
source, no other key and no default value, and besides only what it takes computed keys to bind: it
collects the bound names alone if no identifier stands in a computed key. -/
theorem pattern_names_read (path text : String) (u : SourceUnit)
    (h : SourceUnit.parse path text = .ok u) (s : Shape) (i k : Nat) (ps : List Part)
    (hOpening : u.code.isPunct i s.bracket.opening = true)
    (hPattern : Binds u.code .target i (k + 1) ps) : Reads u.code i k ps := by
  have hFits := SourceUnit.code_fits h
  obtain ⟨hPair, hCollected⟩ : u.code.Pair i k ∧
      patternBindings u.code i k = ps.flatMap (Part.collected u.code) := by
    cases hPattern with
    | name hName =>
      rw [isKind_of_isPunct hOpening (by decide)] at hName
      cases hName
    | nested own hOwn hItems hClosing =>
      have hNext : u.code.isPunct k ":" = false := by
        apply isPunct_of_isPunct hClosing
        cases own <;> decide
      exact nested_collected hFits hOwn hItems hClosing (hItems.collects hFits hNext)
  constructor
  case matching => exact hPair.matching
  case collected => exact hCollected
  case sorted => exact (listed_patternBindings hPair.lt).sorted
  case skipped =>
    rw [hCollected]
    exact fun b hb part => hPattern.laid.not_covers hb
  case bound =>
    intro hKeys
    rw [hCollected]
    refine collected_eq_map_boundNames fun part hPart hRole => ?_
    rw [Part.collected, hRole]
    refine patternBindings_of_none fun p hStart hStop => hKeys part hPart hRole p ⟨hStart.le, ?_⟩
    omega
  case declared =>
    exact fun scope fuel => ⟨_, (declarators_bracket hOpening hPair.matching fuel).symm⟩

theorem pattern_names_read_nested :
    ∃ u, SourceUnit.parse "a.js" "const { a, [0]: [c = f(x, 1), ...d] } = v;\n" = .ok u ∧
      patternBindings u.code 1 21 = [⟨2, true⟩, ⟨9, true⟩, ⟨19, true⟩] := by
  let puncts : List (Nat × String) := [(1, "\x7b"), (3, ","), (4, "["), (7, ":"), (8, "["),
    (10, "="), (17, ","), (18, "..."), (20, "]"), (21, "\x7d")]
  let ps : List Part := [⟨.name, 2, 3⟩, ⟨.computedKey, 4, 7⟩, ⟨.name, 9, 10⟩, ⟨.value, 11, 17⟩,
    ⟨.name, 19, 20⟩]
  obtain ⟨u, hu, hPunct, hName, hNumber, hFunction, hPair⟩ : ∃ u,
      SourceUnit.parse "a.js" "const { a, [0]: [c = f(x, 1), ...d] } = v;\n" = .ok u ∧
        (∀ q ∈ puncts, u.code.isPunct q.1 q.2 = true) ∧
        (∀ p ∈ ([2, 9, 19] : List Nat), u.code.isKind p .identifier = true) ∧
        (∀ p < (7 : Nat), 4 ≤ p → u.code.isKind p .identifier = false) ∧
        (u.code.matching 11 = none ∧ u.code.isPunct 11 "," = false) ∧
        u.code.matching 4 = some 6 ∧ u.code.matching 12 = some 16 :=
    exists_ok (by decide +kernel)
  have hShort : Binds u.code (.item .object) 2 3 [⟨.name, 2, 3⟩] :=
    .shorthand (hName 2 (by decide)) (.bare (.name (hName 2 (by decide))))
  have hKey : Key u.code 4 ⟨.computedKey, 4, 7⟩ :=
    .computed (hPunct (4, "[") (by decide)) ⟨hPair.1, by decide⟩
  have hValue : Expression u.code 11 17 :=
    .plain hFunction.1 hFunction.2 (.group ⟨hPair.2, by decide⟩ .done)
  have hElement : Binds u.code (.item .array) 9 17 [⟨.name, 9, 10⟩, ⟨.value, 11, 17⟩] :=
    .entry ((Binds.name (hName 9 (by decide))).withDefault (hPunct (10, "=") (by decide)) hValue)
  have hRest : Binds u.code (.items .array) 18 20 [⟨.name, 19, 20⟩] :=
    .last (.rest .array (hPunct (18, "...") (by decide)) (.name (hName 19 (by decide))))
  have hArray := Binds.nested .array (hPunct (8, "[") (by decide))
    (hElement.more (hPunct (17, ",") (by decide)) hRest) (hPunct (20, "]") (by decide))
  have hKeyed := Binds.keyed hKey (hPunct (7, ":") (by decide)) (.bare hArray)
  have hPattern : Binds u.code .target 1 22 ps := .nested .object (hPunct (1, "\x7b") (by decide))
    (hShort.more (hPunct (3, ",") (by decide)) (.last hKeyed)) (hPunct (21, "\x7d") (by decide))
  have hReads := pattern_names_read "a.js" _ u hu .object 1 21 ps (hPunct (1, "\x7b") (by decide))
    hPattern
  refine ⟨u, hu, hReads.bound fun part hPart hRole p hCovers => ?_⟩
  have hOnly : ∀ part ∈ ps, part.role = .computedKey → part = ⟨.computedKey, 4, 7⟩ := by decide
  obtain rfl := hOnly part hPart hRole
  exact hNumber p hCovers.2 hCovers.1

/-- The name in a computed key is read, and it is reported as if the pattern declared it. -/
theorem pattern_names_read_exceptions :
    ∃ u, SourceUnit.parse "a.js" "const { [key]: value } = obj;\nvalue;\n" = .ok u ∧
      Binds u.code .target 1 8 [⟨.computedKey, 2, 5⟩, ⟨.name, 6, 7⟩] ∧
      boundNames [⟨.computedKey, 2, 5⟩, ⟨.name, 6, 7⟩] = [6] ∧
      patternBindings u.code 1 7 = [⟨3, true⟩, ⟨6, true⟩] ∧
      rule.check u .empty = [⟨"'key' is assigned a value but never used.", 1, 10⟩] := by
  let puncts : List (Nat × String) := [(1, "\x7b"), (2, "["), (5, ":"), (7, "\x7d")]
  obtain ⟨u, hu, hPunct, hName, hPair, hRead, hReported⟩ : ∃ u,
      SourceUnit.parse "a.js" "const { [key]: value } = obj;\nvalue;\n" = .ok u ∧
        (∀ q ∈ puncts, u.code.isPunct q.1 q.2 = true) ∧
        u.code.isKind 6 .identifier = true ∧ u.code.matching 2 = some 4 ∧
        patternBindings u.code 1 7 = [⟨3, true⟩, ⟨6, true⟩] ∧
        rule.check u .empty = [⟨"'key' is assigned a value but never used.", 1, 10⟩] :=
    exists_ok (by decide +kernel)
  have hKey : Key u.code 2 ⟨.computedKey, 2, 5⟩ :=
    .computed (hPunct (2, "[") (by decide)) ⟨hPair, by decide⟩
  have hKeyed := Binds.keyed hKey (hPunct (5, ":") (by decide)) (.bare (.name hName))
  exact ⟨u, hu, .nested .object (hPunct (1, "\x7b") (by decide)) (.last hKeyed)
    (hPunct (7, "\x7d") (by decide)), rfl, hRead, hReported⟩

end RuleScout.UnusedNames
