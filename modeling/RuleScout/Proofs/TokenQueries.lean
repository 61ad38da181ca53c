import RuleScout.Proofs.CodeView
import RuleScout.Proofs.Navigation

/-!
# Questions about tokens

What a rule asks of a unit it can ask by the indices of the tokens: which token is there, what the
next one is that is not trivia, which bracket belongs to it. A place among the tokens goes with a
place in the code, and then the answers go together as well. What ends an expression is told from
the tokens in the same words as from the code.
-/

set_option autoImplicit false

namespace RuleScout

variable {u : SourceUnit} {i j : Nat} {o p : Option Nat} {path text : String}

namespace SourceUnit

/-- Significant indices are left neither by the brackets nor by the steps to a neighbour, and the
code answers for them. -/
structure Renumbered (u : SourceUnit) : Prop where
  mirrored : ∀ i, u.isSignificant i → u.Mirrored i
  matching : ∀ i j, u.matching i = some j → u.isSignificant j
  parent : ∀ i j, u.parent i = some j → u.isSignificant j

theorem isSignificant_of_closes {o c : Nat} (h : Closes u.lexemes o c) :
    u.isSignificant o = true ∧ u.isSignificant c = true := by
  rw [isSignificant_eq, isSignificant_eq]
  exact h.isSignificantAt

theorem renumbered_of_parse (h : parse path text = .ok u) : u.Renumbered where
  mirrored _ := mirrored_of_parse h
  matching i _ hMatching := by
    rcases (matching_eq_some_iff h).mp hMatching with hCloses | hCloses
    · exact (isSignificant_of_closes hCloses).2
    · exact (isSignificant_of_closes hCloses).1
  parent i _ hParent := by
    obtain ⟨c, hCloses, -⟩ := (mem_ancestors_iff h).mp (List.mem_of_head? hParent)
    exact (isSignificant_of_closes hCloses).1

theorem rank_inj (hi : u.isSignificant i) (hj : u.isSignificant j) (h : u.rank i = u.rank j) :
    i = j := by
  rw [isSignificant_eq] at hi hj
  rw [rank_eq, rank_eq] at h
  exact rankIn_inj hi hj h

theorem isSignificant_of_next (h : u.nextSignificant i = some j) : u.isSignificant j = true :=
  isSignificant_iff.mpr (nextSignificant_eq_some_iff.mp h).1.1

theorem lt_of_next (h : u.nextSignificant i = some j) : i < j :=
  (nextSignificant_eq_some_iff.mp h).1.2

theorem isSignificant_of_prev (h : u.prevSignificant i = some j) : u.isSignificant j = true :=
  isSignificant_iff.mpr (prevSignificant_eq_some_iff.mp h).1.1

theorem lt_of_prev (h : u.prevSignificant i = some j) : j < i :=
  (prevSignificant_eq_some_iff.mp h).1.2

theorem rank_lt_size (hi : u.isSignificant i) : u.rank i < u.code.size := by
  have hRank : u.rank i ∈ u.code.positions := by
    rw [← map_rank_significant]
    exact List.mem_map_of_mem (mem_significant_iff.mpr (isSignificant_iff.mp hi))
  exact List.mem_range.mp hRank

/-! ## Places that go together -/

/-- A place among the tokens, if there is one, and the same place in the code. -/
structure Located (u : SourceUnit) (o p : Option Nat) : Prop where
  eq : p = o.map u.rank
  significant : ∀ i, o = some i → u.isSignificant i

theorem Located.cases (h : u.Located o p) :
    (o = none ∧ p = none) ∨
      ∃ i, o = some i ∧ p = some (u.rank i) ∧ u.isSignificant i = true := by
  obtain ⟨rfl, hSignificant⟩ := h
  cases o with
  | none => exact .inl ⟨rfl, rfl⟩
  | some i => exact .inr ⟨i, rfl, rfl, hSignificant i rfl⟩

theorem Located.any (h : u.Located o p) {f g : Nat → Bool}
    (hAgree : ∀ i, u.isSignificant i → g (u.rank i) = f i) : p.any g = o.any f := by
  rcases h.cases with ⟨rfl, rfl⟩ | ⟨i, rfl, rfl, hi⟩
  · rfl
  · exact hAgree i hi

theorem Located.bind {α : Type} (h : u.Located o p) {f g : Nat → Option α}
    (hAgree : ∀ i, u.isSignificant i → g (u.rank i) = f i) : p.bind g = o.bind f := by
  rcases h.cases with ⟨rfl, rfl⟩ | ⟨i, rfl, rfl, hi⟩
  · rfl
  · exact hAgree i hi

theorem Located.step (h : u.Located o p) {f g : Nat → Option Nat}
    (hAgree : ∀ i, u.isSignificant i → u.Located (f i) (g (u.rank i))) :
    u.Located (o.bind f) (p.bind g) := by
  rcases h.cases with ⟨rfl, rfl⟩ | ⟨i, rfl, rfl, hi⟩
  · exact ⟨rfl, nofun⟩
  · exact hAgree i hi

/-- Places are the same among the tokens exactly if they are the same in the code. -/
theorem Located.eq_iff {o' p' : Option Nat} (h : u.Located o p) (h' : u.Located o' p') :
    p = p' ↔ o = o' := by
  rcases h.cases with ⟨rfl, rfl⟩ | ⟨i, rfl, rfl, hi⟩ <;>
    rcases h'.cases with ⟨rfl, rfl⟩ | ⟨j, rfl, rfl, hj⟩
  · simp
  · simp
  · simp
  · rw [Option.some_inj, Option.some_inj]
    exact ⟨rank_inj hi hj, congrArg u.rank⟩

theorem located_some (hi : u.isSignificant i) : u.Located (some i) (some (u.rank i)) :=
  ⟨rfl, fun _ hj => Option.some.inj hj ▸ hi⟩

namespace Renumbered

variable (h : u.Renumbered) (hi : u.isSignificant i)
include h hi

theorem located_prev : u.Located (u.prevSignificant i) (Code.prev (u.rank i)) :=
  ⟨(h.mirrored i hi).prev, fun _ => isSignificant_of_prev⟩

theorem located_next : u.Located (u.nextSignificant i) (u.code.next (u.rank i)) :=
  ⟨(h.mirrored i hi).next, fun _ => isSignificant_of_next⟩

theorem located_matching : u.Located (u.matching i) (u.code.matching (u.rank i)) :=
  ⟨(h.mirrored i hi).matching, h.matching i⟩

theorem located_parent : u.Located (u.parent i) (u.code.parent (u.rank i)) :=
  ⟨(h.mirrored i hi).parent, h.parent i⟩

end Renumbered

end SourceUnit

open SourceUnit

namespace OnTokens

/-! ## Questions -/

section Questions

variable (u : SourceUnit)

def lexeme? (i : Nat) : Option Lexeme := (u.token? i).map Token.toLexeme

def before? (i : Nat) : Option Lexeme := (u.prevSignificant i).bind (lexeme? u)

def after? (i : Nat) : Option Lexeme := (u.nextSignificant i).bind (lexeme? u)

def isPunct (i : Nat) (text : String) : Bool := (lexeme? u i).any (·.isPunct text)

def isKeyword (i : Nat) (text : String) : Bool := (lexeme? u i).any (·.isKeyword text)

def isKind (i : Nat) (kind : TokenKind) : Bool := (lexeme? u i).any (·.kind = kind)

/-- The token before the opener of the bracket at `i`. -/
def beforeMatching (i : Nat) : Option Nat := (u.matching i).bind u.prevSignificant

/-- Whether parentheses behind the token are the head of a statement or of a function. -/
def isHead (i : Nat) : Bool :=
  match lexeme? u i with
  | none => false
  | some l =>
    match l.kind with
    | .keyword => l.text ∈ Code.headerKeywords
    | .identifier => (u.prevSignificant i).any (isKeyword u · "function")
    | _ => false

def closesHeader (close : Nat) : Bool := (beforeMatching u close).any (isHead u)

def closesArrowBody (close : Nat) : Bool := (beforeMatching u close).any (isPunct u · "=>")

def endsExpression (i : Nat) : Bool :=
  match lexeme? u i with
  | none => false
  | some l =>
    match l.kind with
    | .identifier | .number | .string | .template | .regex => true
    | .keyword => l.text ∈ Code.valueKeywords
    | .punctuator =>
      match l.text with
      | "++" | "--" | "]" => true
      | ")" => !closesHeader u i
      | "\x7d" => u.braceKind i = some .object || closesArrowBody u i
      | _ => false
    | _ => false

def insideExpressionBrackets (i : Nat) : Bool :=
  (u.parent i).any fun o =>
    isPunct u o "(" || isPunct u o "[" || u.braceKind o = some .object

end Questions

/-! ## The answers of the code -/

section Answers

variable (h : u.Renumbered) (hi : u.isSignificant i)
include h hi

theorem at?_rank : u.code.at? (u.rank i) = lexeme? u i := (h.mirrored i hi).lexeme

theorem isPunct_rank (text : String) : u.code.isPunct (u.rank i) text = isPunct u i text := by
  rw [Code.isPunct, isPunct, at?_rank h hi]

theorem isKeyword_rank (text : String) : u.code.isKeyword (u.rank i) text = isKeyword u i text := by
  rw [Code.isKeyword, isKeyword, at?_rank h hi]

theorem isKind_rank (kind : TokenKind) : u.code.isKind (u.rank i) kind = isKind u i kind := by
  rw [Code.isKind, isKind, at?_rank h hi]

theorem braceKind_rank : u.code.braceKind (u.rank i) = u.braceKind i := (h.mirrored i hi).braceKind

theorem before?_rank : u.code.before? (u.rank i) = before? u i :=
  (h.located_prev hi).bind fun _ => at?_rank h

theorem at?_succ_rank : u.code.at? (u.rank i + 1) = after? u i := by
  have hNext : u.code.at? (u.rank i + 1) = (u.code.next (u.rank i)).bind u.code.at? := by
    rw [Code.next]
    split
    · rfl
    · rename_i hEnd
      exact Array.getElem?_eq_none (Nat.le_of_not_lt hEnd)
  rw [hNext]
  exact (h.located_next hi).bind fun _ => at?_rank h

theorem isPunct_succ_rank (text : String) :
    u.code.isPunct (u.rank i + 1) text = (after? u i).any (·.isPunct text) := by
  rw [Code.isPunct, at?_succ_rank h hi]

theorem isKeyword_succ_rank (text : String) :
    u.code.isKeyword (u.rank i + 1) text = (after? u i).any (·.isKeyword text) := by
  rw [Code.isKeyword, at?_succ_rank h hi]

theorem isKind_succ_rank (kind : TokenKind) :
    u.code.isKind (u.rank i + 1) kind = (after? u i).any (·.kind = kind) := by
  rw [Code.isKind, at?_succ_rank h hi]

theorem located_beforeMatching :
    u.Located (beforeMatching u i) (u.code.beforeMatching (u.rank i)) :=
  (h.located_matching hi).step fun _ => h.located_prev

theorem closesHeader_rank : u.code.closesHeader (u.rank i) = closesHeader u i := by
  refine (located_beforeMatching h hi).any fun j hj => ?_
  have hFunction : (Code.prev (u.rank j)).any (u.code.isKeyword · "function") =
      (u.prevSignificant j).any (isKeyword u · "function") :=
    (h.located_prev hj).any fun k hk => isKeyword_rank h hk "function"
  rw [at?_rank h hj, hFunction]
  rfl

theorem closesArrowBody_rank : u.code.closesArrowBody (u.rank i) = closesArrowBody u i :=
  (located_beforeMatching h hi).any fun _ hj => isPunct_rank h hj "=>"

theorem endsExpression_rank : u.code.endsExpression (u.rank i) = endsExpression u i := by
  rw [Code.endsExpression, at?_rank h hi, closesHeader_rank h hi, closesArrowBody_rank h hi,
    braceKind_rank h hi]
  rfl

theorem insideExpressionBrackets_rank :
    u.code.insideExpressionBrackets (u.rank i) = insideExpressionBrackets u i := by
  refine (h.located_parent hi).any fun o ho => ?_
  rw [isPunct_rank h ho, isPunct_rank h ho, braceKind_rank h ho]

end Answers

/-! ## Reports -/

/-- What is said about the significant tokens that a test picks out. -/
def report (u : SourceUnit) (wrong : Nat → Bool) (say : Token → Violation) : List Violation :=
  (u.significant.filter wrong).filterMap fun i => (u.token? i).map say

theorem getElem?_filter_countP {α : Type} (test : α → Bool) {as : List α} {a : α}
    (hAt : as[i]? = some a) (hTest : test a = true) :
    (as.filter test)[(as.take i).countP test]? = some a := by
  obtain ⟨hLt, rfl⟩ := List.getElem?_eq_some_iff.mp hAt
  have hSplit : as.filter test =
      (as.take i).filter test ++ as[i] :: (as.drop (i + 1)).filter test := by
    conv_lhs => rw [← List.take_append_drop i as, ← List.getElem_cons_drop hLt]
    rw [List.filter_append, List.filter_cons_of_pos hTest]
  rw [hSplit, List.countP_eq_length_filter, List.getElem?_append_right (Nat.le_refl _),
    Nat.sub_self]
  rfl

theorem significantTokens_rank (hi : u.isSignificant i) :
    u.significantTokens[u.rank i]? = u.token? i := by
  obtain ⟨t, hToken, hTest⟩ := (Option.any_eq_true _ _).mp hi
  have hAt : u.tokens.toList[i]? = some t := by rwa [Array.getElem?_toList]
  rw [hToken]
  exact getElem?_filter_countP (fun t => t.isSignificant) hAt hTest

/-- What is found at the places of the code is found at the tokens there. -/
theorem filterMap_positions {site? : Nat → Option Site} {found? : Nat → Option Violation}
    (hAgree : ∀ i, u.isSignificant i →
      (site? (u.rank i)).bind (Site.locate? u.significantTokens) = found? i) :
    (u.code.positions.filterMap site?).filterMap (Site.locate? u.significantTokens) =
      u.significant.filterMap found? := by
  rw [← map_rank_significant, List.filterMap_filterMap, List.filterMap_map]
  apply List.filterMap_congr
  intro i hMem
  exact hAgree i (List.mem_filter.mp hMem).2

theorem report_eq {picks : Nat → Bool} {wrong : Nat → Bool} {site : Nat → Site}
    {say : Token → Violation} (hPicks : ∀ i, u.isSignificant i → picks (u.rank i) = wrong i)
    (hSite : ∀ i, u.isSignificant i →
      Site.locate? u.significantTokens (site (u.rank i)) = (u.token? i).map say) :
    ((u.code.positions.filter picks).map site).filterMap (Site.locate? u.significantTokens) =
      report u wrong say := by
  rw [report, ← map_rank_significant, List.filter_map, List.filterMap_map, List.filterMap_map]
  have hSame : u.significant.filter (picks ∘ u.rank) = u.significant.filter wrong :=
    List.filter_congr fun i hMem => hPicks i (List.mem_filter.mp hMem).2
  rw [hSame]
  apply List.filterMap_congr
  intro i hMem
  exact hSite i (List.mem_filter.mp (List.mem_filter.mp hMem).1).2

theorem locate?_start (hi : u.isSignificant i) (message : String) :
    Site.locate? u.significantTokens (.start (u.rank i) message) =
      (u.token? i).map (.atStart · message) := by
  rw [Site.locate?, Site.start, significantTokens_rank hi]
  rfl

theorem locate?_stop (hi : u.isSignificant i) (message : String) :
    Site.locate? u.significantTokens (.stop (u.rank i) message) =
      (u.token? i).map (.atEnd · message) := by
  rw [Site.locate?, Site.stop, significantTokens_rank hi]
  rfl

end OnTokens

end RuleScout
