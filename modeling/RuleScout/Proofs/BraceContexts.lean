import RuleScout.Proofs.BracedText
import RuleScout.Proofs.Excerpts

/-!
# Contexts of braces

What a brace opens is decided by the token before it, and what is found inside depends on nothing
else: in an object behind one listed token the rules find the same as behind another, and so they do
in a block behind any other token. The list lacks most operators, and it has the colon, which stands
behind labels as well.
-/

set_option autoImplicit false

namespace RuleScout

/-! ## Rules that report sites -/

namespace Empty

def sites (u : SourceUnit) (options : Options) : List Site :=
  (u.code.positions.filter (isEmptyBlock u u.code u.significant.toArray)).filterMap
    (site? u.code (options.flag 0 "allowEmptyCatch" false))

end Empty

/-- A rule that reports sites of the code, with columns filled in afterwards. -/
structure SiteRule where
  rule : Rule
  sites : SourceUnit → Options → List Site
  check_eq : ∀ u options,
    rule.check u options = (sites u options).filterMap (Site.locate? u.significantTokens)

/-- The rules on semicolons, trailing commas and empty blocks. -/
def siteRules : List SiteRule :=
  [⟨Semi.rule, fun u => Semi.sites u.code, fun _ _ => rfl⟩,
    ⟨CommaDangle.rule, fun u => CommaDangle.sites u.code, fun _ _ => rfl⟩,
    ⟨Empty.noEmpty, Empty.sites, fun _ _ => rfl⟩]

theorem map_kind_eq {a a' : Token} {ts ts' : List Token}
    (h : List.Forall₂ (Token.Alike a a') ts ts') : ts.map (·.kind) = ts'.map (·.kind) := by
  rw [← List.forall₂_eq_eq_eq, List.forall₂_map_left_iff, List.forall₂_map_right_iff]
  exact h.imp fun _ _ hToken => hToken.kind

theorem filter_significant_alike {a a' : Token} {ts ts' : List Token}
    (h : List.Forall₂ (Token.Alike a a') ts ts') :
    List.Forall₂ (Token.Alike a a') (ts.filter (·.isSignificant))
      (ts'.filter (·.isSignificant)) := by
  induction h with
  | nil => exact .nil
  | @cons t t' ts ts' hToken _ ih =>
    rw [List.filter_cons, List.filter_cons, hToken.isSignificant]
    split
    · exact .cons hToken ih
    · exact ih

/-! ## Indices of significant tokens -/

def significantIndices (ls : List Lexeme) : List Nat :=
  (List.range ls.length).filter (isSignificantAt ls)

theorem length_significantIndices (ls : List Lexeme) :
    (significantIndices ls).length = (significantOf ls).length := by
  have hRanks := congrArg List.length (map_rankIn_range ls ls.length)
  rwa [List.length_map, List.length_range, rankIn_length] at hRanks

theorem significantIndices_append (ls ks : List Lexeme) :
    significantIndices (ls ++ ks) =
      significantIndices ls ++ (significantIndices ks).map (ls.length + ·) := by
  rw [significantIndices, List.length_append, List.range_add, List.filter_append, List.filter_map]
  congr 1
  · refine List.filter_congr fun i hi => ?_
    rw [isSignificantAt, List.getElem?_append_left (List.mem_range.mp hi), isSignificantAt]
  · refine congrArg (List.map _) (List.filter_congr fun i _ => ?_)
    rw [Function.comp, isSignificantAt, List.getElem?_append_right (Nat.le_add_right _ _),
      Nat.add_sub_cancel_left, isSignificantAt]

theorem significantIndices_congr {ls ks : List Lexeme} (h : ls.map (·.kind) = ks.map (·.kind)) :
    significantIndices ls = significantIndices ks := by
  have hLength := congrArg List.length h
  rw [List.length_map, List.length_map] at hLength
  have hSame : isSignificantAt ls = isSignificantAt ks := by
    funext i
    have hKind := congrArg (fun kinds => kinds[i]?.any (!·.isTrivia)) h
    rwa [List.getElem?_map, List.getElem?_map, Option.any_map, Option.any_map] at hKind
  rw [significantIndices, significantIndices, hLength, hSame]

theorem length_significantOf_map (ts : List Token) :
    (significantOf (ts.map Token.toLexeme)).length = (ts.filter (·.isSignificant)).length := by
  rw [significantOf, List.filter_map, List.length_map]
  rfl

theorem SourceUnit.code_plain (u : SourceUnit) :
    ∀ l ∈ u.code.lexemes.toList, l.isSignificant = true := by
  intro l hl
  obtain ⟨t, ht, rfl⟩ := List.mem_map.mp hl
  exact (List.mem_filter.mp ht).2

namespace SourceUnit.Braced

variable {u u' : SourceUnit} {path path' text text' : String} {i : Nat} {t : Token}

/-! ## Positions in the code -/

def position (b : Braced u) : Nat := u.rank b.opener

def significantTokens (b : Braced u) : List Token := b.tokens.filter (·.isSignificant)

/-- How many positions behind the opening brace the closing one is. -/
def span (b : Braced u) : Nat := u.rank b.closer - b.position

theorem lt_length (b : Braced u) : b.opener < u.tokens.toList.length := by
  obtain ⟨t, hToken, -⟩ := (Option.any_eq_true _ _).mp b.opens
  exact Array.length_toList ▸ (Array.getElem?_eq_some_iff.mp hToken).1

theorem position_eq (b : Braced u) : b.position = (b.before.filter (·.isSignificant)).length := by
  rw [position, rank, List.countP_eq_length_filter, before]

section Accepted

variable (h : parse path text = .ok u)
include h

theorem isSignificant_sides (b : Braced u) :
    u.isSignificant b.opener = true ∧ u.isSignificant b.closer = true := by
  rw [isSignificant_eq, isSignificant_eq]
  exact (b.pair h).isSignificantAt

theorem position_add_span (b : Braced u) : b.position + b.span = u.rank b.closer := by
  refine Nat.add_sub_cancel' ?_
  rw [position, rank_eq, rank_eq]
  exact rankIn_mono (b.pair h).lt.le

theorem length_significantTokens (b : Braced u) : b.significantTokens.length = b.span + 1 := by
  have hEnd : b.closer + 1 = b.opener + (b.closer + 1 - b.opener) := by
    have hLt := (b.pair h).lt
    omega
  have hNext : u.rank (b.closer + 1) = b.position + b.significantTokens.length := by
    rw [rank, hEnd, List.take_add, List.countP_append, position, rank, significantTokens,
      ← List.countP_eq_length_filter, tokens]
  rw [rank_succ, if_pos (b.isSignificant_sides h).2, ← b.position_add_span h,
    Nat.add_assoc] at hNext
  exact (Nat.add_left_cancel hNext).symm

theorem pair_position (b : Braced u) : u.code.Pair b.position (b.position + b.span) := by
  rw [b.position_add_span h]
  constructor
  · rw [position, (mirrored_of_parse h (b.isSignificant_sides h).1).matching, b.closes,
      Option.map_some]
  · rw [position, rank_eq, rank_eq, rankIn_lt_iff (b.pair h).isSignificantAt.1]
    exact (b.pair h).lt

theorem isPunct_position (b : Braced u) : u.code.isPunct b.position "\x7b" = true := by
  rw [position, Code.isPunct, (mirrored_of_parse h (b.isSignificant_sides h).1).lexeme,
    Option.any_map]
  exact b.opens

theorem braceKind_position (b : Braced u) : u.code.braceKind b.position = b.kind :=
  (mirrored_of_parse h (b.isSignificant_sides h).1).braceKind

theorem getElem?_significantTokens (b : Braced u) (hi : i ≤ b.span) :
    u.significantTokens[b.position + i]? = b.significantTokens[i]? := by
  have hLt : i < b.significantTokens.length := by
    rw [b.length_significantTokens h]
    omega
  rw [SourceUnit.significantTokens, b.split h, List.filter_append, List.filter_append,
    b.position_eq, List.getElem?_append_right (Nat.le_add_right _ _), Nat.add_sub_cancel_left]
  exact List.getElem?_append_left hLt

end Accepted

section Alike

variable (h : parse path text = .ok u) (h' : parse path' text' = .ok u') (b : Braced u)
  (b' : Braced u') (hChars : b.chars = b'.chars)
include h h' hChars

theorem significantTokens_alike :
    ∃ t t', u.token? b.opener = some t ∧ u'.token? b'.opener = some t' ∧
      List.Forall₂ (Token.Alike t t') b.significantTokens b'.significantTokens := by
  obtain ⟨t, t', ht, ht', hTokens⟩ := b.tokens_alike h h' b' hChars
  exact ⟨t, t', ht, ht', filter_significant_alike hTokens⟩

theorem span_eq : b.span = b'.span := by
  obtain ⟨t, t', -, -, hTokens⟩ := significantTokens_alike h h' b b' hChars
  have hLength := hTokens.length_eq
  rw [b.length_significantTokens h, b'.length_significantTokens h'] at hLength
  exact Nat.succ.inj hLength

/-- Equal texts in braces of one kind are excerpts of the same. -/
theorem excerpt (hKind : b.kind = b'.kind) :
    u.code.Excerpt u'.code b.position b'.position b.span where
  fits := code_fits h
  fits' := code_fits h'
  plain := code_plain u
  plain' := code_plain u'
  pair := b.pair_position h
  pair' := span_eq h h' b b' hChars ▸ b'.pair_position h'
  opens := b.isPunct_position h
  kind := by rw [b.braceKind_position h, b'.braceKind_position h', hKind]
  lexemes := by
    obtain ⟨t, t', -, -, hTokens⟩ := significantTokens_alike h h' b b' hChars
    refine ⟨t.line, t'.line, fun i hi => ?_⟩
    have hi' : i ≤ b'.span := span_eq h h' b b' hChars ▸ hi
    have hLt : i < b.significantTokens.length := by
      rw [b.length_significantTokens h]
      omega
    have hLt' : i < b'.significantTokens.length := hTokens.length_eq ▸ hLt
    have hSame := hTokens.get hLt hLt'
    refine ⟨_, _, ?_, ?_, hSame.kind, hSame.text, hSame.place.lines⟩
    · rw [code_at?, b.getElem?_significantTokens h hi, List.getElem?_eq_getElem hLt]
      rfl
    · rw [code_at?, b'.getElem?_significantTokens h' hi', List.getElem?_eq_getElem hLt']
      rfl

end Alike

/-! ## Empty blocks -/

section Blocks

def lexemes (b : Braced u) : List Lexeme := b.tokens.map Token.toLexeme

theorem significant_eq (u : SourceUnit) : u.significant = significantIndices u.lexemes := by
  rw [significant, significantIndices, length_lexemes]
  exact List.filter_congr fun i _ => u.isSignificant_eq i

theorem commentBetween_eq (b : Braced u) {x y : Nat} (hy : b.opener + y ≤ b.closer) :
    Empty.commentBetween u (b.opener + x) (b.opener + y) =
      (((b.lexemes.map (·.kind)).drop (x + 1)).take (y - (x + 1))).any TokenKind.isComment := by
  have hWidth : b.opener + y - (b.opener + x + 1) = y - (x + 1) := by omega
  have hInside : min (y - (x + 1)) (b.closer + 1 - b.opener - (x + 1)) = y - (x + 1) := by omega
  rw [Empty.commentBetween, hWidth, lexemes, tokens, List.map_map, ← List.map_drop, ← List.map_take,
    List.any_map, List.drop_take, List.take_take, hInside, List.drop_drop, Nat.add_assoc]
  rfl

variable (h : parse path text = .ok u)
include h

theorem length_significantIndices (b : Braced u) :
    (significantIndices b.lexemes).length = b.span + 1 := by
  rw [RuleScout.length_significantIndices, lexemes, length_significantOf_map, ← significantTokens,
    b.length_significantTokens h]

theorem getElem?_significant (b : Braced u) (hi : i ≤ b.span) :
    u.significant[b.position + i]? = (significantIndices b.lexemes)[i]?.map (b.opener + ·) := by
  have hBefore : (significantIndices (b.before.map Token.toLexeme)).length = b.position := by
    rw [RuleScout.length_significantIndices, length_significantOf_map, b.position_eq]
  have hLength : (b.before.map Token.toLexeme).length = b.opener := by
    rw [List.length_map, before, List.length_take_of_le]
    exact b.lt_length.le
  have hOwn : i < (significantIndices b.lexemes).length := by
    rw [b.length_significantIndices h]
    omega
  rw [significant_eq, SourceUnit.lexemes, b.split h, List.map_append, List.map_append,
    significantIndices_append, significantIndices_append, hLength, ← lexemes,
    List.getElem?_append_right (by omega), hBefore, Nat.add_sub_cancel_left, List.getElem?_map,
    List.getElem?_append_left hOwn]

/-- The indices of a significant token and of the next one, and what is between them. -/
theorem exists_indices (b : Braced u) (hi : i < b.span) :
    ∃ x y, (significantIndices b.lexemes)[i]? = some x ∧
      (significantIndices b.lexemes)[i + 1]? = some y ∧
      u.significant.toArray[b.position + i]? = some (b.opener + x) ∧
      u.significant.toArray[b.position + i + 1]? = some (b.opener + y) ∧
      b.opener + y ≤ b.closer := by
  have hLength := b.length_significantIndices h
  obtain ⟨x, hx⟩ : ∃ x, (significantIndices b.lexemes)[i]? = some x :=
    ⟨_, List.getElem?_eq_getElem (by omega)⟩
  obtain ⟨y, hy⟩ : ∃ y, (significantIndices b.lexemes)[i + 1]? = some y :=
    ⟨_, List.getElem?_eq_getElem (by omega)⟩
  refine ⟨x, y, hx, hy, ?_, ?_, ?_⟩
  · rw [List.getElem?_toArray, b.getElem?_significant h hi.le, hx]
    rfl
  · rw [List.getElem?_toArray, Nat.add_assoc, b.getElem?_significant h hi, hy]
    rfl
  · have hRange := List.mem_range.mp (List.mem_filter.mp (List.mem_of_getElem? hy)).1
    rw [lexemes, List.length_map, tokens, List.length_take] at hRange
    omega

variable (h' : parse path' text' = .ok u') (b : Braced u) (b' : Braced u')
  (hChars : b.chars = b'.chars) (hKind : b.kind = b'.kind)
include h' hChars hKind

theorem isEmptyBlock_eq (hi : i < b.span) :
    Empty.isEmptyBlock u u.code u.significant.toArray (b.position + i) =
      Empty.isEmptyBlock u' u'.code u'.significant.toArray (b'.position + i) := by
  have hExcerpt := excerpt h h' b b' hChars hKind
  obtain ⟨t, t', -, -, hTokens⟩ := b.tokens_alike h h' b' hChars
  have hKinds : b.lexemes.map (·.kind) = b'.lexemes.map (·.kind) := by
    rw [lexemes, lexemes, List.map_map, List.map_map]
    exact map_kind_eq hTokens
  obtain ⟨x, y, hx, hy, hAt, hNext, hEnd⟩ := b.exists_indices h hi
  obtain ⟨x', y', hx', hy', hAt', hNext', hEnd'⟩ :=
    b'.exists_indices h' (span_eq h h' b b' hChars ▸ hi)
  rw [← significantIndices_congr hKinds, hx] at hx'
  rw [← significantIndices_congr hKinds, hy] at hy'
  cases hx'
  cases hy'
  have hMatching : u.code.matching (b.position + i) = some (b.position + i + 1) ↔
      u'.code.matching (b'.position + i) = some (b'.position + i + 1) := by
    rw [hExcerpt.fits.matching_next_iff, hExcerpt.fits'.matching_next_iff]
    exact hExcerpt.pair_iff hi
  have hComment : Empty.commentBetween u (b.opener + x) (b.opener + y) =
      Empty.commentBetween u' (b'.opener + x) (b'.opener + y) := by
    rw [b.commentBetween_eq hEnd, b'.commentBetween_eq hEnd', hKinds]
  simp only [Empty.isEmptyBlock, hExcerpt.isPunct_eq hi.le, hExcerpt.braceKind_eq hi.le, hMatching,
    hAt, hNext, hAt', hNext', hComment]

end Blocks

/-! ## What is reported inside -/

/-- Under the options, the rule reports what stands `i` positions behind the opening brace. -/
def Reports (b : Braced u) (r : SiteRule) (options : Options) (i : Nat) (behind : Bool)
    (message : String) : Prop :=
  ⟨b.position + i, behind, message⟩ ∈ r.sites u options

/-- The tokens from brace to brace say the same and stand alike, and the same is reported inside. -/
structure Alike (b : Braced u) (b' : Braced u') : Prop where
  tokens : ∃ t t', u.token? b.opener = some t ∧ u'.token? b'.opener = some t' ∧
    List.Forall₂ (Token.Alike t t') b.tokens b'.tokens
  span : b.span = b'.span
  places : ∀ i ≤ b.span, u.significantTokens[b.position + i]? = b.significantTokens[i]? ∧
    u'.significantTokens[b'.position + i]? = b'.significantTokens[i]?
  reports : ∀ r ∈ siteRules, ∀ options i behind message, 0 < i → i < b.span →
    (b.Reports r options i behind message ↔ b'.Reports r options i behind message)

section Alike

variable (h : parse path text = .ok u) (h' : parse path' text' = .ok u') (b : Braced u)
  (b' : Braced u') (hChars : b.chars = b'.chars) (hKind : b.kind = b'.kind)
include h h' hChars hKind

theorem reports_facing {r : SiteRule} (hr : r ∈ siteRules) (options : Options) {behind : Bool}
    {message : String} (hi : 0 < i) (hin : i < b.span)
    (hReports : b.Reports r options i behind message) :
    b'.Reports r options i behind message := by
  have hExcerpt := excerpt h h' b b' hChars hKind
  simp only [siteRules, List.mem_cons, List.not_mem_nil, or_false] at hr
  rcases hr with rfl | rfl | rfl
  · exact Semi.mem_sites_facing hExcerpt options hi hin hReports
  · exact CommaDangle.mem_sites_facing hExcerpt options hin hReports
  · obtain ⟨p, hp, hSite⟩ := List.mem_filterMap.mp hReports
    obtain rfl := Empty.position_of_site? hSite
    have hEmpty := (List.mem_filter.mp hp).2
    rw [isEmptyBlock_eq h h' b b' hChars hKind hin] at hEmpty
    exact List.mem_filterMap.mpr ⟨b'.position + i,
      List.mem_filter.mpr ⟨List.mem_range.mpr (hExcerpt.lt_size hin.le), hEmpty⟩,
      Empty.site?_facing hExcerpt _ hi hin hSite⟩

theorem alike : Alike b b' where
  tokens := b.tokens_alike h h' b' hChars
  span := span_eq h h' b b' hChars
  places _ hi := ⟨b.getElem?_significantTokens h hi,
    b'.getElem?_significantTokens h' (span_eq h h' b b' hChars ▸ hi)⟩
  reports _ hr options _ _ _ hi hin :=
    ⟨reports_facing h h' b b' hChars hKind hr options hi hin,
      reports_facing h' h b' b hChars.symm hKind.symm hr options hi
        (span_eq h h' b b' hChars ▸ hin)⟩

end Alike

end SourceUnit.Braced

/-! ## Contexts -/

/-- What a brace opens an object behind. -/
def objectContexts : List Piece :=
  BraceKind.objectPunctuators.map (⟨.punctuator, ·⟩) ++ BraceKind.objectKeywords.map (⟨.keyword, ·⟩)

/-- Some of the places where an expression is expected. -/
def expressionContexts : List Piece :=
  ["=", "(", "[", ",", "?"].map (⟨.punctuator, ·⟩) ++ ["return", "typeof"].map (⟨.keyword, ·⟩)

/-- Other places where an expression is expected, all behind operators but for the last. -/
def overlookedContexts : List Piece :=
  ["==", "!=", "===", "!==", "<", ">", "<=", ">=", "+", "-", "*", "/", "%", "**", "<<", ">>", ">>>",
    "&", "|", "^", "!", "~", "*=", "/=", "%=", "**=", "<<=", ">>=", ">>>=", "&=", "|=",
    "^="].map (⟨.punctuator, ·⟩) ++
  ["in", "instanceof", "void", "delete", "default"].map (⟨.keyword, ·⟩)

/-- Places where a statement is expected. A text begins with one as well. -/
def statementContexts : List Piece :=
  [")", ";", "\x7d"].map (⟨.punctuator, ·⟩) ++ ["else", "do", "try"].map (⟨.keyword, ·⟩)

theorem BraceKind.after_some (l : Lexeme) :
    after (some l) = if l.piece ∈ objectContexts then .object else .block := by
  obtain ⟨kind, text, line⟩ := l
  cases kind <;> simp [after, objectContexts, Lexeme.piece]

theorem expressionContexts_object : ∀ p ∈ expressionContexts, p ∈ objectContexts := by decide

theorem statementContexts_block : ∀ p ∈ statementContexts, p ∉ objectContexts := by decide

theorem overlookedContexts_block : ∀ p ∈ overlookedContexts, p ∉ objectContexts := by decide

namespace SourceUnit.Braced

variable {u : SourceUnit} {path text : String}

/-- The kind of a brace by what is in front of it. -/
structure Classified (b : Braced u) : Prop where
  object : b.kind = some .object ↔ ∃ t ∈ b.previous?, t.piece ∈ objectContexts
  block : b.kind = some .block ↔ ∀ t ∈ b.previous?, t.piece ∉ objectContexts
  expression : ∀ t ∈ b.previous?, t.piece ∈ expressionContexts → b.kind = some .object
  statement : (∀ t ∈ b.previous?, t.piece ∈ statementContexts) → b.kind = some .block
  overlooked : ∀ t ∈ b.previous?, t.piece ∈ overlookedContexts → b.kind = some .block
  colon : ∀ t ∈ b.previous?, t.isPunct ":" = true → b.kind = some .object

theorem classified (h : parse path text = .ok u) (b : Braced u) : Classified b := by
  have hKind := b.kind_eq h
  cases hPrevious : b.previous? with
  | none =>
    rw [hPrevious] at hKind
    have hBlock : b.kind = some .block := hKind
    constructor <;> simp [hPrevious, hBlock]
  | some t =>
    rw [hPrevious, Option.map_some, BraceKind.after_some] at hKind
    have hObject : b.kind = some .object ↔ t.piece ∈ objectContexts := by
      rw [hKind, Option.some_inj]
      split <;> simp [*]
    have hBlock : b.kind = some .block ↔ t.piece ∉ objectContexts := by
      rw [hKind, Option.some_inj]
      split <;> simp [*]
    constructor <;> simp only [hPrevious, Option.mem_some_iff, exists_eq_left', forall_eq']
    case object => exact hObject
    case block => exact hBlock
    case expression => exact fun ht => hObject.mpr (expressionContexts_object _ ht)
    case statement => exact fun ht => hBlock.mpr (statementContexts_block _ ht)
    case overlooked => exact fun ht => hBlock.mpr (overlookedContexts_block _ ht)
    case colon =>
      intro hColon
      obtain ⟨hPunct, hText⟩ := Lexeme.isPunct_iff.mp hColon
      rw [hObject, Lexeme.piece, hPunct, hText]
      decide

end SourceUnit.Braced

/-- What a brace opens is decided by the token in front of it, and in braces of one kind the same
text is read alike and reported alike, whatever it stands in. -/
theorem brace_contexts_agree (path path' text text' : String) (u u' : SourceUnit)
    (h : SourceUnit.parse path text = .ok u) (h' : SourceUnit.parse path' text' = .ok u') :
    (∀ i t, u.token? i = some t → t.isPunct "\x7b" = true → ∃ b : u.Braced, b.opener = i) ∧
    (∀ b : u.Braced, b.Classified) ∧
    ∀ (b : u.Braced) (b' : u'.Braced), b.chars = b'.chars → b.kind = b'.kind → b.Alike b' := by
  refine ⟨fun i t ht hOpens => ?_, fun b => b.classified h, fun b b' hChars hKind => ?_⟩
  · exact SourceUnit.Braced.exists_of_token? h ht hOpens
  · exact b.alike h h' b' hChars hKind

theorem brace_contexts_agree_call :
    let list := "\x7ba: [1,]\x7d"
    ∃ u u', SourceUnit.parse "a.js" ("f(" ++ list ++ ")") = .ok u ∧
      SourceUnit.parse "a.js" ("x = y ? " ++ list ++ " : 1") = .ok u' ∧
      CommaDangle.rule.check u .empty = [⟨"Unexpected trailing comma.", 1, 9⟩] ∧
      ∃ (b : u.Braced) (b' : u'.Braced), b.position = 2 ∧ b'.position = 4 ∧
        b.kind = some .object ∧ b.Alike b' := by
  intro list
  obtain ⟨u, hu, hOpens, hCloses, hChars, hRank, hKind, hCommas⟩ : ∃ u,
      SourceUnit.parse "a.js" ("f(" ++ list ++ ")") = .ok u ∧
      (u.token? 2).any (·.isPunct "\x7b") = true ∧ u.matching 2 = some 10 ∧
      ((u.tokens.toList.drop 2).take 9).flatMap (·.chars) = list.toList ∧ u.rank 2 = 2 ∧
      u.braceKind 2 = some .object ∧
      CommaDangle.rule.check u .empty = [⟨"Unexpected trailing comma.", 1, 9⟩] :=
    exists_ok (by decide +kernel)
  obtain ⟨u', hu', hOpens', hCloses', hChars', hRank', hKind'⟩ : ∃ u,
      SourceUnit.parse "a.js" ("x = y ? " ++ list ++ " : 1") = .ok u ∧
      (u.token? 8).any (·.isPunct "\x7b") = true ∧ u.matching 8 = some 16 ∧
      ((u.tokens.toList.drop 8).take 9).flatMap (·.chars) = list.toList ∧ u.rank 8 = 4 ∧
      u.braceKind 8 = some .object :=
    exists_ok (by decide +kernel)
  let b : u.Braced := ⟨2, 10, hOpens, hCloses⟩
  let b' : u'.Braced := ⟨8, 16, hOpens', hCloses'⟩
  obtain ⟨-, -, hAlike⟩ := brace_contexts_agree "a.js" "a.js" _ _ u u' hu hu'
  exact ⟨u, u', hu, hu', hCommas, b, b', hRank, hRank', hKind,
    hAlike b b' (hChars.trans hChars'.symm) (hKind.trans hKind'.symm)⟩

/-- An object behind most operators or behind a default export is taken for a block, and its commas
are not looked at. A block behind a label is taken for an object, and so the semicolon is missed
behind it instead of in it. -/
theorem brace_contexts_agree_exceptions :
    let answers (r : Rule) (text : String) := (SourceUnit.parse "a.js" text).toOption.map fun u =>
      (u.significant.filterMap fun i =>
        if (u.token? i).any (·.isPunct "\x7b") then u.braceKind i else none,
        (r.check u .empty).map fun v => (v.line, v.column))
    answers CommaDangle.rule "x = a + \x7bb: 1,\x7d" = some ([.block], []) ∧
      answers CommaDangle.rule "export default \x7bb: 1,\x7d" = some ([.block], []) ∧
      answers Semi.rule "a: \x7bb()\x7d" = some ([.object], [(1, 9)]) ∧
      answers Semi.rule "switch (a) \x7bcase 1: \x7bb()\x7d\x7d" =
        some ([.block, .object], [(1, 26)]) := by
  intro answers
  refine ⟨?_, ?_, ?_, ?_⟩ <;> decide +kernel

end RuleScout
