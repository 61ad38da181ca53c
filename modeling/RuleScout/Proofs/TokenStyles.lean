import RuleScout.Proofs.TokenQueries

/-!
# Rules of style on tokens

The rules on semicolons, quotes, comparisons, trailing commas and forbidden words once more, as they
go through the tokens of a unit and from a token to its neighbours and brackets. On a unit that has
been parsed they find what the rules on the code find.
-/

set_option autoImplicit false

namespace RuleScout

open SourceUnit

namespace OnTokens

variable (u : SourceUnit)

/-! ## Semicolons -/

/-- Whether a statement that ends at `i` is over if the token at `n` is the next one. -/
def statementEndsBetween (i n : Nat) : Bool :=
  match lexeme? u i, lexeme? u n with
  | some current, some following =>
    if following.line = current.endLine then
      following.isPunct "\x7d" && u.braceKind n = some .block
    else
      match following.kind with
      | .template => false
      | .punctuator => following.text ∈ Semi.statementStarters
      | .keyword => following.text ∉ Semi.continuationKeywords
      | _ => true
  | _, _ => true

def statementEndsAfter (i : Nat) : Bool :=
  match u.nextSignificant i with
  | none => true
  | some n => statementEndsBetween u i n

def isMissingAfter (i : Nat) : Bool :=
  endsExpression u i && !insideExpressionBrackets u i && statementEndsAfter u i

def isRisky (i : Nat) : Bool :=
  match lexeme? u i, after? u i with
  | some current, some following =>
    current.line < following.line &&
      (following.text ∈ Semi.riskyStarters || following.kind = .template || following.kind = .regex)
  | _, _ => false

def isExtra (i : Nat) : Bool :=
  isPunct u i ";" && !(u.parent i).any (isPunct u · "(") &&
    (u.prevSignificant i).any (endsExpression u) && !isRisky u i && statementEndsAfter u i

def semicolons (options : Options) : List Violation :=
  if options.string 0 "always" = "never" then
    report u (isExtra u) (.atStart · "Extra semicolon.")
  else report u (isMissingAfter u) (.atEnd · "Missing semicolon.")

/-! ## Quotes -/

def isTagged (i : Nat) : Bool :=
  (before? u i).any fun l => l.kind = .identifier || l.isPunct ")" || l.isPunct "]"

def isWrongQuote (style : Quotes.Style) (avoidEscape allowTemplates : Bool) (i : Nat) : Bool :=
  (lexeme? u i).any fun l =>
    match l.kind with
    | .string => l.quote? ≠ some style.quote && !Quotes.isExcused style avoidEscape l
    | .template =>
      style ≠ .backtick && !allowTemplates && Quotes.isPlain l && !isTagged u i &&
        !Quotes.isExcused style avoidEscape l
    | _ => false

def quotes (options : Options) : List Violation :=
  let style := Quotes.Style.ofName (options.string 0 "double")
  let avoidEscape := options.flag 1 "avoidEscape" false
  let allowTemplates := options.flag 1 "allowTemplateLiterals" false
  report u (isWrongQuote u style avoidEscape allowTemplates)
    (.atStart · ("Strings must use " ++ style.describe ++ "."))

/-! ## Comparisons -/

/-- The first token of the chain of member accesses that ends at a token; a chain that starts with
a dot has none. -/
def operandStart (i : Nat) : Option Nat :=
  match _hDot : u.prevSignificant i with
  | none => some i
  | some d =>
    if isPunct u d "." then
      match _hStart : u.prevSignificant d with
      | none => none
      | some j => operandStart j
    else some i
termination_by i
decreasing_by exact Nat.lt_trans (lt_of_prev _hStart) (lt_of_prev _hDot)

def isSmart (i : Nat) : Bool :=
  match u.prevSignificant i, before? u i, after? u i with
  | some j, some left, some right =>
    left.isKeyword "null" || right.isKeyword "null" ||
      ((operandStart u j).bind u.prevSignificant).any (isKeyword u · "typeof") ||
      right.isKeyword "typeof" || (Equality.isLiteral left && Equality.isLiteral right)
  | _, _, _ => false

def comparison? (smart : Bool) (i : Nat) : Option Violation :=
  (u.token? i).bind fun t =>
    if Equality.isLooseOperator t.toLexeme && !(smart && isSmart u i) then
      some (.atStart t ("Expected '" ++ t.text ++ "=' and instead saw '" ++ t.text ++ "'."))
    else none

def comparisons (options : Options) : List Violation :=
  u.significant.filterMap (comparison? u (options.string 0 "always" = "smart"))

/-! ## Trailing commas -/

def isListEnd (i : Nat) : Bool :=
  isPunct u i "]" || (isPunct u i "\x7d" && u.braceKind i = some .object)

/-- The end of a list that is not empty: the token before the closing bracket, and the last element,
which lies before a trailing comma. -/
def tail? (close : Nat) : Option (Nat × Nat) :=
  if isListEnd u close then
    (u.prevSignificant close).bind fun i =>
      if u.matching close = some i then none
      else if isPunct u i "," then (u.prevSignificant i).map (i, ·)
      else some (i, i)
  else none

def comma? (policy : CommaDangle.Policy) (close : Nat) : Option Violation :=
  match tail? u close, lexeme? u close with
  | some (i, last), some closer =>
    let trailing := isPunct u i ","
    let multiline := (lexeme? u last).any fun l => l.endLine < closer.line
    match policy.wantsComma multiline, trailing with
    | some false, true => (u.token? i).map (.atStart · "Unexpected trailing comma.")
    | some true, false => (u.token? last).map (.atEnd · "Missing trailing comma.")
    | _, _ => none
  | _, _ => none

def commas (options : Options) : List Violation :=
  u.significant.filterMap (comma? u (.ofName (options.string 0 "never")))

/-! ## Forbidden words -/

def forbiddenKeyword (word message : String) (_ : Options) : List Violation :=
  report u (isKeyword u · word) (.atStart · message)

def isConsoleAccess (allowed : List String) (i : Nat) : Bool :=
  (lexeme? u i).any (fun l => l.kind = .identifier && l.text = "console") &&
    !(before? u i).any Forbidden.isMemberDot &&
    (u.nextSignificant i).any fun dot =>
      isPunct u dot "." && (after? u dot).any fun l => l.text ∉ allowed

def consoleCalls (options : Options) : List Violation :=
  report u (isConsoleAccess u (Forbidden.allowedMethods options))
    (.atStart · "Unexpected console statement.")

/-! ## What the rules on the code find -/

variable {u} {i j n : Nat}

section Answers

variable (h : u.Renumbered) (hi : u.isSignificant i)
include h hi

theorem rank_of_next (hNext : u.nextSignificant i = some n) : u.rank n = u.rank i + 1 := by
  have hCode := (h.located_next hi).eq
  rw [hNext, Option.map_some, Code.next] at hCode
  split at hCode
  · exact (Option.some.inj hCode).symm
  · cases hCode

theorem rank_of_prev (hPrev : u.prevSignificant i = some j) : u.rank i = u.rank j + 1 := by
  have hCode := (h.located_prev hi).eq
  rw [hPrev, Option.map_some] at hCode
  cases hRank : u.rank i with
  | zero =>
    rw [hRank] at hCode
    cases hCode
  | succ p =>
    rw [hRank] at hCode
    rw [Option.some.inj hCode]

theorem rank_of_first (hPrev : u.prevSignificant i = none) : u.rank i = 0 := by
  have hCode := (h.located_prev hi).eq
  rw [hPrev, Option.map_none] at hCode
  cases hRank : u.rank i with
  | zero => rfl
  | succ p =>
    rw [hRank] at hCode
    cases hCode

theorem statementEndsAfter_rank :
    Semi.statementEndsAfter u.code (u.rank i) = statementEndsAfter u i := by
  rw [Semi.statementEndsAfter, statementEndsAfter, at?_rank h hi, Code.after?, at?_succ_rank h hi,
    after?]
  cases hNext : u.nextSignificant i with
  | none => cases lexeme? u i <;> rfl
  | some n =>
    rw [Option.bind_some, ← rank_of_next h hi hNext, braceKind_rank h (isSignificant_of_next hNext)]
    rfl

theorem isMissingAfter_rank : Semi.isMissingAfter u.code (u.rank i) = isMissingAfter u i := by
  rw [Semi.isMissingAfter, isMissingAfter, endsExpression_rank h hi,
    insideExpressionBrackets_rank h hi, statementEndsAfter_rank h hi]

theorem isRisky_rank : Semi.isRisky u.code (u.rank i) = isRisky u i := by
  rw [Semi.isRisky, at?_rank h hi, Code.after?, at?_succ_rank h hi]
  rfl

theorem isExtra_rank : Semi.isExtra u.code (u.rank i) = isExtra u i := by
  have hParent : (u.code.parent (u.rank i)).any (u.code.isPunct · "(") =
      (u.parent i).any (isPunct u · "(") :=
    (h.located_parent hi).any fun o ho => isPunct_rank h ho "("
  have hBefore : (Code.prev (u.rank i)).any u.code.endsExpression =
      (u.prevSignificant i).any (endsExpression u) :=
    (h.located_prev hi).any fun j hj => endsExpression_rank h hj
  rw [Semi.isExtra, isExtra, isPunct_rank h hi, hParent, hBefore, isRisky_rank h hi,
    statementEndsAfter_rank h hi]

theorem isWrongQuote_rank (style : Quotes.Style) (avoidEscape allowTemplates : Bool) :
    Quotes.isWrong u.code style avoidEscape allowTemplates (u.rank i) =
      isWrongQuote u style avoidEscape allowTemplates i := by
  have hTagged : Quotes.isTagged u.code (u.rank i) = isTagged u i := by
    rw [Quotes.isTagged, isTagged, before?_rank h hi]
  rw [Quotes.isWrong, at?_rank h hi, hTagged]
  rfl

omit hi in
theorem located_operandStart (i : Nat) (hi : u.isSignificant i) :
    u.Located (operandStart u i) (Equality.operandStart u.code (u.rank i)) := by
  fun_induction operandStart u i with
  | case1 i hPrev =>
    have hOwn : Equality.operandStart u.code (u.rank i) = some (u.rank i) := by
      rw [rank_of_first h hi hPrev, Equality.operandStart]
    rw [hOwn]
    exact located_some hi
  | case2 i d hDot hIsDot hPrev =>
    have hd := isSignificant_of_prev hDot
    rw [rank_of_prev h hi hDot, rank_of_first h hd hPrev, Equality.operandStart,
      ← rank_of_first h hd hPrev, isPunct_rank h hd, if_pos hIsDot]
    exact ⟨rfl, nofun⟩
  | case3 i d hDot hIsDot j hPrev ih =>
    have hd := isSignificant_of_prev hDot
    have hj := isSignificant_of_prev hPrev
    rw [rank_of_prev h hi hDot, rank_of_prev h hd hPrev, Equality.operandStart,
      ← rank_of_prev h hd hPrev, isPunct_rank h hd, if_pos hIsDot]
    exact ih hj
  | case4 i d hDot hNoDot =>
    have hd := isSignificant_of_prev hDot
    have hOwn : Equality.operandStart u.code (u.rank i) = some (u.rank i) := by
      have hText : u.code.isPunct (u.rank d) "." = false := by
        rw [isPunct_rank h hd]
        exact Bool.eq_false_iff.mpr hNoDot
      rw [rank_of_prev h hi hDot]
      cases hRank : u.rank d with
      | zero =>
        rw [hRank] at hText
        rw [Equality.operandStart, hText]
        rfl
      | succ p =>
        rw [hRank] at hText
        rw [Equality.operandStart, hText]
        rfl
    rw [hOwn]
    exact located_some hi

theorem isSmart_rank : Equality.isSmart u.code (u.rank i) = isSmart u i := by
  rw [Equality.isSmart, isSmart, before?_rank h hi, Code.after?, at?_succ_rank h hi]
  rcases (h.located_prev hi).cases with ⟨hNone, hCode⟩ | ⟨j, hPrev, hCode, hj⟩
  · rw [hNone, hCode]
  · have hTypeof : ((Equality.operandStart u.code (u.rank j)).bind Code.prev).any
          (u.code.isKeyword · "typeof") =
        ((operandStart u j).bind u.prevSignificant).any (isKeyword u · "typeof") :=
      ((located_operandStart h j hj).step fun _ => h.located_prev).any
        fun k hk => isKeyword_rank h hk "typeof"
    rw [hPrev, hCode]
    cases before? u i with
    | none => rfl
    | some left =>
      cases after? u i with
      | none => rfl
      | some right => simp only [hTypeof]

theorem comparison?_rank (smart : Bool) :
    (Equality.site? u.code smart (u.rank i)).bind (Site.locate? u.significantTokens) =
      comparison? u smart i := by
  rw [Equality.site?, comparison?, at?_rank h hi, lexeme?, isSmart_rank h hi]
  cases hToken : u.token? i with
  | none => rfl
  | some t =>
    simp only [Option.map_some, Option.bind_some]
    split
    · rw [Option.bind_some, locate?_start hi, hToken]
      rfl
    · rfl

theorem isListEnd_rank : CommaDangle.isListEnd u.code (u.rank i) = isListEnd u i := by
  rw [CommaDangle.isListEnd, isListEnd, isPunct_rank h hi, isPunct_rank h hi, braceKind_rank h hi]

/-- The ends of a list go together. -/
theorem tail?_rank :
    CommaDangle.tail? u.code (u.rank i) = (tail? u i).map (Prod.map u.rank u.rank) ∧
      ∀ t ∈ tail? u i, u.isSignificant t.1 = true ∧ u.isSignificant t.2 = true := by
  rw [CommaDangle.tail?, tail?, isListEnd_rank h hi]
  split
  · rcases (h.located_prev hi).cases with ⟨hNone, hCode⟩ | ⟨j, hPrev, hCode, hj⟩
    · simp [hNone, hCode]
    · have hMatching := (h.located_matching hi).eq_iff (located_some hj)
      rw [hPrev, hCode, Option.bind_some, Option.bind_some, isPunct_rank h hj]
      by_cases hEmpty : u.matching i = some j
      · simp [hEmpty, hMatching.mpr hEmpty]
      · rw [if_neg hEmpty, if_neg (mt hMatching.mp hEmpty)]
        split
        · rcases (h.located_prev hj).cases with ⟨hNone, hCode⟩ | ⟨k, hPrev, hCode, hk⟩
          · simp [hNone, hCode]
          · simp [hPrev, hCode, hj, hk]
        · simp [hj]
  · simp

theorem comma?_rank (policy : CommaDangle.Policy) :
    (CommaDangle.site? u.code policy (u.rank i)).bind (Site.locate? u.significantTokens) =
      comma? u policy i := by
  obtain ⟨hTail, hEnds⟩ := tail?_rank h hi
  rw [CommaDangle.site?, comma?, hTail, at?_rank h hi]
  cases hOwn : tail? u i with
  | none => rfl
  | some t =>
    obtain ⟨j, last⟩ := t
    obtain ⟨hj, hLast⟩ := hEnds _ hOwn
    cases lexeme? u i with
    | none => rfl
    | some closer =>
      simp only [Option.map_some, Prod.map, isPunct_rank h hj, at?_rank h hLast]
      generalize policy.wantsComma ((lexeme? u last).any fun l => l.endLine < closer.line) = wanted
      generalize isPunct u j "," = trailing
      cases wanted with
      | none => rfl
      | some wants =>
        cases wants <;> cases trailing
        case false.true => exact locate?_start hj _
        case true.false => exact locate?_stop hLast _
        all_goals rfl

theorem isConsoleAccess_rank (allowed : List String) :
    Forbidden.isConsoleAccess u.code allowed (u.rank i) = isConsoleAccess u allowed i := by
  have hMember : (u.code.isPunct (u.rank i + 1) "." &&
        (u.code.at? (u.rank i + 2)).any fun l => l.text ∉ allowed) =
      (u.nextSignificant i).any fun dot =>
        isPunct u dot "." && (after? u dot).any fun l => l.text ∉ allowed := by
    rw [isPunct_succ_rank h hi, after?]
    cases hNext : u.nextSignificant i with
    | none => rfl
    | some dot =>
      have hDot := isSignificant_of_next hNext
      rw [← Nat.add_assoc (u.rank i) 1 1, ← rank_of_next h hi hNext, at?_succ_rank h hDot]
      rfl
  rw [Forbidden.isConsoleAccess, isConsoleAccess, at?_rank h hi, before?_rank h hi, Bool.and_assoc,
    hMember]

end Answers

/-! ## The rules -/

section Rules

variable (h : u.Renumbered) (options : Options)
include h

theorem semicolons_eq : Semi.rule.check u options = semicolons u options := by
  rw [Semi.rule, check_onCode, Semi.sites, semicolons]
  split
  · exact report_eq (fun _ => isExtra_rank h) fun _ hi => locate?_start hi _
  · exact report_eq (fun _ => isMissingAfter_rank h) fun _ hi => locate?_stop hi _

theorem quotes_eq : Quotes.rule.check u options = quotes u options := by
  rw [Quotes.rule, check_onCode]
  exact report_eq (fun _ hi => isWrongQuote_rank h hi _ _ _) fun _ hi => locate?_start hi _

theorem comparisons_eq : Equality.rule.check u options = comparisons u options := by
  rw [Equality.rule, check_onCode]
  exact filterMap_positions fun _ hi => comparison?_rank h hi _

theorem commas_eq : CommaDangle.rule.check u options = commas u options := by
  rw [CommaDangle.rule, check_onCode]
  exact filterMap_positions fun _ hi => comma?_rank h hi _

theorem forbiddenKeyword_eq (metadata : RuleMetadata) (word message : String) :
    (Rule.onCode metadata (Forbidden.keywordSites word message)).check u options =
      forbiddenKeyword u word message options := by
  rw [check_onCode]
  exact report_eq (fun _ hi => isKeyword_rank h hi _) fun _ hi => locate?_start hi _

theorem consoleCalls_eq : Forbidden.noConsole.check u options = consoleCalls u options := by
  rw [Forbidden.noConsole, check_onCode]
  exact report_eq (fun _ hi => isConsoleAccess_rank h hi _) fun _ hi => locate?_start hi _

end Rules

end OnTokens

end RuleScout
