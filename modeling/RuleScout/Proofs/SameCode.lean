import RuleScout.Proofs.Fallible
import RuleScout.Proofs.TokenNames

/-!
# Units with the same code

Eight rules go through the tokens of a unit and find what their counterparts on the code find. So
units whose significant tokens agree get the same findings, wherever trivia stand between them.
-/

set_option autoImplicit false

namespace RuleScout

/-- The same thing is said about the same line. -/
structure Violation.Agrees (v v' : Violation) : Prop where
  line : v.line = v'.line
  message : v.message = v'.message

/-- A rule and what it does on the tokens of a unit. -/
structure TokenRule where
  rule : Rule
  onTokens : SourceUnit → Options → List Violation

def tokenRules : List TokenRule :=
  [⟨Semi.rule, OnTokens.semicolons⟩, ⟨Quotes.rule, OnTokens.quotes⟩,
    ⟨Equality.rule, OnTokens.comparisons⟩, ⟨CommaDangle.rule, OnTokens.commas⟩,
    ⟨Forbidden.noVar,
      (OnTokens.forbiddenKeyword · "var" "Unexpected var, use let or const instead.")⟩,
    ⟨Forbidden.noConsole, OnTokens.consoleCalls⟩,
    ⟨Forbidden.noDebugger,
      (OnTokens.forbiddenKeyword · "debugger" "Unexpected 'debugger' statement.")⟩,
    ⟨UnusedNames.rule, OnTokens.unusedNames⟩]

variable {r : TokenRule}

theorem exists_onCode (hr : r ∈ tokenRules) :
    ∃ metadata sites, r.rule = .onCode metadata sites := by
  simp only [tokenRules, List.mem_cons, List.not_mem_nil, or_false] at hr
  rcases hr with rfl | rfl | rfl | rfl | rfl | rfl | rfl | rfl
  any_goals exact ⟨_, _, rfl⟩
  -- the rule on the console is unfolded first
  dsimp only [Forbidden.noConsole]
  exact ⟨_, _, rfl⟩

theorem onTokens_eq {u : SourceUnit} (h : u.Renumbered) (hr : r ∈ tokenRules) (options : Options) :
    r.onTokens u options = r.rule.check u options := by
  simp only [tokenRules, List.mem_cons, List.not_mem_nil, or_false] at hr
  rcases hr with rfl | rfl | rfl | rfl | rfl | rfl | rfl | rfl
  · exact (OnTokens.semicolons_eq h options).symm
  · exact (OnTokens.quotes_eq h options).symm
  · exact (OnTokens.comparisons_eq h options).symm
  · exact (OnTokens.commas_eq h options).symm
  · exact (OnTokens.forbiddenKeyword_eq h options _ _ _).symm
  · exact (OnTokens.consoleCalls_eq h options).symm
  · exact (OnTokens.forbiddenKeyword_eq h options _ _ _).symm
  · exact (OnTokens.unusedNames_eq h options).symm

theorem forall₂_locate? {ts ts' : List Token} (h : ts.map Token.toLexeme = ts'.map Token.toLexeme)
    (sites : List Site) :
    List.Forall₂ Violation.Agrees (sites.filterMap (Site.locate? ts))
      (sites.filterMap (Site.locate? ts')) := by
  induction sites with
  | nil => exact .nil
  | cons s sites ih =>
    have hAt : ts[s.position]?.map Token.toLexeme = ts'[s.position]?.map Token.toLexeme := by
      rw [← List.getElem?_map, h, List.getElem?_map]
    rw [List.filterMap_cons, List.filterMap_cons, Site.locate?, Site.locate?]
    cases hToken : ts[s.position]? with
    | none =>
      rw [hToken, Option.map_none, eq_comm, Option.map_eq_none_iff] at hAt
      rw [hAt]
      exact ih
    | some t =>
      rw [hToken, Option.map_some, eq_comm, Option.map_eq_some_iff] at hAt
      obtain ⟨t', hToken', hLexeme⟩ := hAt
      rw [hToken']
      refine .cons ?_ ih
      -- the line of the end is known from the lexeme as well
      cases s.behind with
      | true => exact ⟨congrArg Lexeme.endLine hLexeme.symm, rfl⟩
      | false => exact ⟨congrArg Lexeme.line hLexeme.symm, rfl⟩

/-- Eight rules find the same in units with the same significant tokens. They find it by going
through the tokens from each one to its neighbours and brackets, and every such step is the step in
the code that leaves trivia out. -/
theorem findings_of_same_code (path path' text text' : String) (u u' : SourceUnit)
    (h : SourceUnit.parse path text = .ok u) (h' : SourceUnit.parse path' text' = .ok u')
    (hSame : u.significantTokens.map Token.toLexeme = u'.significantTokens.map Token.toLexeme) :
    (∀ r ∈ tokenRules, ∀ options,
      (∀ w ∈ [u, u'], r.onTokens w options = r.rule.check w options) ∧
      List.Forall₂ Violation.Agrees (r.onTokens u options) (r.onTokens u' options) ∧
      List.Forall₂ Violation.Agrees (r.rule.check u options) (r.rule.check u' options)) ∧
    u.code = u'.code ∧
    (∀ w ∈ [u, u'], w.significant.map w.rank = w.code.positions ∧
      ∀ i ∈ w.significant, w.Mirrored i) := by
  have hCode : u.code = u'.code := congrArg Code.ofLexemes hSame
  have hNumbered : ∀ w ∈ [u, u'], w.Renumbered := List.forall_mem_cons.mpr
    ⟨SourceUnit.renumbered_of_parse h,
      List.forall_mem_singleton.mpr (SourceUnit.renumbered_of_parse h')⟩
  refine ⟨fun r hr options => ?_, hCode, fun w hw => ⟨w.map_rank_significant, fun i hi => ?_⟩⟩
  · have hTokens : ∀ w ∈ [u, u'], r.onTokens w options = r.rule.check w options :=
      fun w hw => onTokens_eq (hNumbered w hw) hr options
    have hFound :
        List.Forall₂ Violation.Agrees (r.rule.check u options) (r.rule.check u' options) := by
      obtain ⟨metadata, sites, hRule⟩ := exists_onCode hr
      rw [hRule, check_onCode, check_onCode, ← hCode]
      exact forall₂_locate? hSame _
    refine ⟨hTokens, ?_, hFound⟩
    rw [hTokens u List.mem_cons_self, hTokens u' (List.mem_cons_of_mem u List.mem_cons_self)]
    exact hFound
  · exact (hNumbered w hw).mirrored i (List.mem_filter.mp hi).2

theorem findings_of_same_code_spaced :
    ∃ u u', SourceUnit.parse "a.js" "if (a) \x7b f([a])\x7d\nb = 1 // last\n" = .ok u ∧
      SourceUnit.parse "a.js" "if(a)\x7bf( [ a /* one */ ] ) \x7d\n  b=1" = .ok u' ∧
      u.significant ≠ u'.significant ∧
      Semi.rule.check u .empty =
        [⟨"Missing semicolon.", 1, 16⟩, ⟨"Missing semicolon.", 2, 6⟩] ∧
      List.Forall₂ Violation.Agrees (OnTokens.semicolons u .empty) (OnTokens.semicolons u' .empty) ∧
      List.Forall₂ Violation.Agrees (Semi.rule.check u .empty) (Semi.rule.check u' .empty) ∧
      u.Mirrored 6 ∧ u'.Mirrored 4 := by
  let code : List Lexeme :=
    [⟨.keyword, "if", 1⟩, ⟨.punctuator, "(", 1⟩, ⟨.identifier, "a", 1⟩, ⟨.punctuator, ")", 1⟩,
      ⟨.punctuator, "\x7b", 1⟩, ⟨.identifier, "f", 1⟩, ⟨.punctuator, "(", 1⟩,
      ⟨.punctuator, "[", 1⟩, ⟨.identifier, "a", 1⟩, ⟨.punctuator, "]", 1⟩, ⟨.punctuator, ")", 1⟩,
      ⟨.punctuator, "\x7d", 1⟩, ⟨.identifier, "b", 2⟩, ⟨.punctuator, "=", 2⟩, ⟨.number, "1", 2⟩]
  obtain ⟨u, hu, hCode, hSpace, hBrace, hFound⟩ : ∃ u,
      SourceUnit.parse "a.js" "if (a) \x7b f([a])\x7d\nb = 1 // last\n" = .ok u ∧
      u.significantTokens.map Token.toLexeme = code ∧ 1 ∉ u.significant ∧ 6 ∈ u.significant ∧
      Semi.rule.check u .empty =
        [⟨"Missing semicolon.", 1, 16⟩, ⟨"Missing semicolon.", 2, 6⟩] :=
    exists_ok (by decide +kernel)
  obtain ⟨u', hu', hCode', hRound, hBrace'⟩ : ∃ u',
      SourceUnit.parse "a.js" "if(a)\x7bf( [ a /* one */ ] ) \x7d\n  b=1" = .ok u' ∧
      u'.significantTokens.map Token.toLexeme = code ∧ 1 ∈ u'.significant ∧ 4 ∈ u'.significant :=
    exists_ok (by decide +kernel)
  obtain ⟨hAgree, -, hMirrored⟩ :=
    findings_of_same_code "a.js" "a.js" _ _ u u' hu hu' (hCode.trans hCode'.symm)
  have hDiffer : u.significant ≠ u'.significant := fun hEq => hSpace (hEq ▸ hRound)
  obtain ⟨-, hOnTokens, hOnCode⟩ := hAgree _ List.mem_cons_self .empty
  exact ⟨u, u', hu, hu', hDiffer, hFound, hOnTokens, hOnCode,
    (hMirrored u List.mem_cons_self).2 6 hBrace,
    (hMirrored u' (List.mem_cons_of_mem u List.mem_cons_self)).2 4 hBrace'⟩

end RuleScout
