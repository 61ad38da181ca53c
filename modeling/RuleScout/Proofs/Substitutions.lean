import RuleScout.Proofs.Spelling
import RuleScout.Proofs.Tokens
import RuleScout.Proofs.Terminators
import RuleScout.Rule.Builtin.UnusedNames

/-!
# Names in templates

Templates are read twice. The lexer follows escapes, quotations, comments and templates inside
templates; the search for names takes every dollar sign in front of a brace for a substitution and
ends it by counting braces. The names it finds are those of the substitutions as long as no escape
stands between the two, and the braces of every substitution pair up as they stand.
-/

set_option autoImplicit false

namespace RuleScout

open Text

namespace Template

/-! ## The parts of a literal -/

/-- What stands in a literal besides plain text. -/
inductive Part where
  /-- A backslash, in front of the given text. -/
  | escape (behind : List Char)
  /-- What stands between the braces of a substitution. -/
  | substitution (body : List Char)
  deriving DecidableEq, Repr

/-- The parts of a literal behind its opening backtick; the first `skip` characters are passed
over. -/
def parts : Nat → List Char → List Part
  | _, [] => []
  | skip + 1, _ :: cs => parts skip cs
  | 0, c :: cs =>
    if c = '\\' then .escape cs :: parts 1 cs
    else if c = '\x60' then []
    else if c = '$' ∧ cs.head? = some '{' then
      match scan [.code 0 0] 0 cs.tail with
      | .ok n => .substitution (cs.tail.take (n - 1)) :: parts (n + 1) cs
      | .error _ => []
    else parts 0 cs

/-- A literal behind its opening backtick, with its parts. -/
inductive Composed : List Char → List Part → Prop where
  | close : Composed ['\x60'] []
  | escape (c : Char) {cs : List Char} {ps : List Part} (hRest : Composed cs ps) :
      Composed ('\\' :: c :: cs) (.escape (c :: cs) :: ps)
  | substitution {body cs : List Char} {ps : List Part} (hRest : Composed cs ps) :
      Composed ('$' :: '{' :: (body ++ '}' :: cs)) (.substitution body :: ps)
  | plain {c : Char} {cs : List Char} {ps : List Part} (hOpen : ¬(c = '$' ∧ cs.head? = some '{'))
      (hRest : Composed cs ps) : Composed (c :: cs) ps

theorem parts_skip (n : Nat) (cs : List Char) : parts n cs = parts 0 (cs.drop n) := by
  induction n generalizing cs with
  | zero => rfl
  | succ n ih =>
    cases cs with
    | nil => rfl
    | cons c cs => exact ih cs

/-- What is open innermost is read to its end before the rest is read. -/
theorem scan_append_ok {fs below : List Frame} {i n : Nat} {cs : List Char}
    (h : scan (fs ++ below) i cs = .ok n) :
    ∃ k m j, scan fs i cs = .ok k ∧ scan below j (cs.drop k) = .ok m ∧ k + m = n := by
  match fs, cs with
  | [], cs => exact ⟨0, n, i, by rw [scan], h, Nat.zero_add n⟩
  | f :: fs, [] => cases h
  | f :: fs, c :: cs =>
    have hCount := move_count_le f i c cs
    rw [List.cons_append, scan_cons, resume, map_eq_ok_iff, ← List.append_assoc] at h
    obtain ⟨a, ha, rfl⟩ := h
    obtain ⟨k, m, j, hk, hm, rfl⟩ := scan_append_ok ha
    refine ⟨k + (f.move i c cs.head?).count, m, j, ?_, ?_, by omega⟩
    · rw [scan_cons, resume, hk]
      rfl
    · rwa [List.drop_drop, Nat.add_comm] at hm
termination_by cs.length
decreasing_by
  rw [List.length_drop]
  omega

theorem body_of_scan {cs : List Char} {n : Nat} (h : scan [.code 0 0] 0 cs = .ok n) :
    ∃ body rest, cs = body ++ '}' :: rest ∧ n = body.length + 1 := by
  obtain ⟨hLe, hAny⟩ := scan_endsAt _ (by simp) 0 cs n h
  have hTake : scan [.code 0 0] 0 (cs.take n) = .ok (cs.take n).length := by
    rw [List.length_take_of_le hLe, ← List.append_nil (cs.take n)]
    exact hAny []
  have hLast := ((scan_eq_length_iff _ _ _).mp hTake).getLast? rfl
  obtain ⟨body, hBody⟩ := List.getLast?_eq_some_iff.mp hLast
  refine ⟨body, cs.drop n, ?_, ?_⟩
  · rw [List.append_cons]
    exact (List.take_append_drop n cs).symm.trans (congrArg (· ++ cs.drop n) hBody)
  · have hLength := congrArg List.length hBody
    rw [List.length_take_of_le hLe, List.length_append] at hLength
    exact hLength

theorem drop_body (body rest : List Char) :
    (body ++ '}' :: rest).drop (body.length + 1) = rest := by
  rw [List.append_cons]
  exact List.drop_left' (by simp)

theorem parts_substitution {body rest : List Char}
    (h : scan [.code 0 0] 0 (body ++ '}' :: rest) = .ok (body.length + 1)) :
    parts 0 ('$' :: '{' :: (body ++ '}' :: rest)) = .substitution body :: parts 0 rest := by
  have hBehind : parts (body.length + 2) ('{' :: (body ++ '}' :: rest)) = parts 0 rest := by
    rw [parts_skip, List.drop_succ_cons, drop_body]
  rw [parts, if_neg (by decide), if_neg (by decide), if_pos ⟨rfl, rfl⟩, List.tail_cons, h]
  simp only [hBehind, Nat.add_sub_cancel, List.take_left]

/-- Where the lexer enters a substitution and where it leaves it are its two braces. -/
theorem spent_substitution {cs : List Char} (h : Spent [.code 0 0, .literal 0] cs) :
    ∃ body rest, cs = body ++ '}' :: rest ∧ Spent [.literal 0] rest ∧
      scan [.code 0 0] 0 cs = .ok (body.length + 1) := by
  have hScan : scan ([.code 0 0] ++ [.literal 0]) 0 cs = .ok cs.length :=
    (scan_eq_length_iff _ _ _).mpr h
  obtain ⟨k, m, j, hBody, hRest, hLength⟩ := scan_append_ok hScan
  obtain ⟨body, rest, rfl, rfl⟩ := body_of_scan hBody
  have hOwn : m = rest.length := by
    simp only [List.length_append, List.length_cons] at hLength
    omega
  rw [drop_body, hOwn] at hRest
  exact ⟨body, rest, rfl, (scan_eq_length_iff [.literal 0] j rest).mp hRest, hBody⟩

theorem composed_parts (cs : List Char) (h : Spent [.literal 0] cs) : Composed cs (parts 0 cs) := by
  match cs with
  | [] => cases h
  | c :: cs =>
    rw [spent_cons_iff] at h
    by_cases hEscape : c = '\\'
    · subst hEscape
      cases cs with
      | nil => cases h
      | cons d cs => exact .escape d (composed_parts cs h)
    by_cases hTick : c = '\x60'
    · subst hTick
      cases spent_nil_iff.mp h
      exact .close
    by_cases hOpen : c = '$' ∧ cs.head? = some '{'
    · obtain ⟨rfl, hHead⟩ := hOpen
      obtain ⟨tail, rfl⟩ := List.head?_eq_some_iff.mp hHead
      have hInside : Spent [.code 0 0, .literal 0] tail := h
      obtain ⟨body, rest, rfl, hRest, hScan⟩ := spent_substitution hInside
      rw [parts_substitution hScan]
      exact .substitution (composed_parts rest hRest)
    · have hMove : (Frame.literal 0).move 0 c cs.head? = ⟨[.literal 0], 1⟩ := by
        simp [Frame.move, hEscape, hTick, hOpen]
      rw [hMove] at h
      rw [parts, if_neg hEscape, if_neg hTick, if_neg hOpen]
      exact .plain hOpen (composed_parts cs h)
termination_by cs.length

end Template

namespace UnusedNames

variable {name : String}

/-! ## What a template reads -/

/-- The template reads the name in one of its substitutions. Only what can be cut into tokens is
looked at, and a word behind a member dot is not a name. -/
inductive Mentions : List Char → String → Prop where
  | word {cs body : List Char} {ts : List Token} {pre post : List Lexeme} {l : Lexeme}
      (hBody : .substitution body ∈ Template.parts 0 cs.tail)
      (hLex : lex (String.ofList body) = .ok ts)
      (hSplit : (ts.filter (·.isSignificant)).map Token.toLexeme = pre ++ l :: post)
      (hKind : l.kind = .identifier) (hFree : pre.getLast?.any isMemberDot = false) :
      Mentions cs l.text
  | template {cs body : List Char} {ts : List Token} {t : Token} {name : String}
      (hBody : .substitution body ∈ Template.parts 0 cs.tail)
      (hLex : lex (String.ofList body) = .ok ts) (hToken : t ∈ ts) (hKind : t.kind = .template)
      (hInner : Mentions t.chars name) : Mentions cs name

/-- The braces of a text pair up as they stand, those in quotations and comments included. -/
structure BracesPair (body : List Char) : Prop where
  ahead : ∀ k ≤ body.length, (body.take k).count '}' ≤ (body.take k).count '{'
  even : body.count '}' = body.count '{'

/-- Read without regard to escapes and quotations, the part comes out the same. -/
def Clear : Template.Part → Prop
  | .escape behind => ¬['$', '{'] <+: behind
  | .substitution body => BracesPair body

/-- Templates whose parts are clear, and those of the templates inside them. -/
inductive Regular : List Char → Prop where
  | intro {cs : List Char} (hClear : ∀ p ∈ Template.parts 0 cs.tail, Clear p)
      (hNested : ∀ body ts, .substitution body ∈ Template.parts 0 cs.tail →
        lex (String.ofList body) = .ok ts → ∀ t ∈ ts, t.kind = .template → Regular t.chars) :
      Regular cs

/-! ## Counting braces -/

theorem splitBody_append {body : List Char} {depth : Nat}
    (hAhead : ∀ k ≤ body.length, (body.take k).count '}' ≤ depth + (body.take k).count '{')
    (hEven : body.count '}' = depth + body.count '{') (rest : List Char) :
    splitBody depth (body ++ '}' :: rest) = (body, '}' :: rest) := by
  induction body generalizing depth with
  | nil =>
    obtain rfl : depth = 0 := by simpa using hEven.symm
    simp [splitBody]
  | cons c body ih =>
    -- the first brace cannot be one that closes more than is open
    have hFirst : c = '}' → depth ≠ 0 := by
      rintro rfl rfl
      have hOne := hAhead 1 (by simp)
      simp at hOne
    have hLater : ∀ k ≤ body.length, (c :: body.take k).count '}' ≤
        depth + (c :: body.take k).count '{' :=
      fun k hk => hAhead (k + 1) (Nat.succ_le_succ hk)
    simp only [List.count_cons, beq_iff_eq] at hLater hEven
    rw [List.cons_append, splitBody, if_neg (by simpa using hFirst)]
    by_cases hOpen : c = '{'
    · have hRest := @ih (depth + 1) (by grind) (by grind)
      simp only [if_pos hOpen, hRest]
    by_cases hClose : c = '}'
    · have hRest := @ih (depth - 1) (by grind) (by grind)
      simp only [if_neg hOpen, if_pos hClose, hRest]
    · have hRest := @ih depth (by grind) (by grind)
      simp only [if_neg hOpen, if_neg hClose, hRest]

theorem BracesPair.splitBody {body : List Char} (h : BracesPair body) (rest : List Char) :
    splitBody 0 (body ++ '}' :: rest) = (body, '}' :: rest) :=
  splitBody_append (by simpa using h.ahead) (by simpa using h.even) rest

/-! ## Names in one body -/

theorem mem_freeWords_iff {before : Option Lexeme} {ls : List Lexeme} {l : Lexeme} :
    l ∈ freeWords before ls ↔ ∃ pre post, ls = pre ++ l :: post ∧
      (l.kind = .template ∨
        l.kind = .identifier ∧ (pre.getLast?.or before).any isMemberDot = false) := by
  induction ls generalizing before with
  | nil => simp [freeWords]
  | cons a ls ih =>
    have hHere : l ∈ freeWords before (a :: ls) ↔
        (l = a ∧ (a.kind = .template ∨ a.kind = .identifier ∧ before.any isMemberDot = false)) ∨
          l ∈ freeWords (some a) ls := by
      rw [freeWords]
      split <;> simp_all
    rw [hHere, ih]
    constructor
    · rintro (⟨rfl, hWord⟩ | ⟨pre, post, rfl, hWord⟩)
      · exact ⟨[], ls, rfl, hWord⟩
      · refine ⟨a :: pre, post, rfl, ?_⟩
        rwa [List.getLast?_cons, Option.some_or, ← Option.or_some]
    · rintro ⟨pre, post, hSplit, hWord⟩
      cases pre with
      | nil =>
        cases hSplit
        exact .inl ⟨rfl, hWord⟩
      | cons b pre =>
        cases hSplit
        refine .inr ⟨pre, post, rfl, ?_⟩
        rwa [List.getLast?_cons, Option.some_or, ← Option.or_some] at hWord

/-- The names found in one body. -/
def namesOfBody (fuel : Nat) (body : List Char) : List String :=
  match lex (String.ofList body) with
  | .ok tokens =>
    (freeWords none ((tokens.filter (·.isSignificant)).map Token.toLexeme)).flatMap fun l =>
      if l.kind = .template then namesIn fuel l.chars else [l.text]
  | .error _ => []

theorem namesIn_substitution {fuel : Nat} {body : List Char} (h : BracesPair body)
    (rest : List Char) :
    namesIn (fuel + 1) ('$' :: '{' :: (body ++ '}' :: rest)) =
      namesOfBody fuel body ++ namesIn fuel ('}' :: rest) := by
  rw [namesIn, h.splitBody]
  rfl

theorem namesIn_plain {fuel : Nat} {c : Char} {cs : List Char}
    (h : ¬(c = '$' ∧ cs.head? = some '{')) : namesIn (fuel + 1) (c :: cs) = namesIn fuel cs := by
  rw [namesIn]
  rintro tail rfl rfl
  exact h ⟨rfl, rfl⟩

/-- The body has the name as a word, or a template for which `inner` holds. -/
def NamedIn (inner : List Char → Prop) (body : List Char) (name : String) : Prop :=
  ∃ ts, lex (String.ofList body) = .ok ts ∧
    ((∃ pre l post, (ts.filter (·.isSignificant)).map Token.toLexeme = pre ++ l :: post ∧
        l.kind = .identifier ∧ pre.getLast?.any isMemberDot = false ∧ l.text = name) ∨
      ∃ t ∈ ts, t.kind = .template ∧ inner t.chars)

theorem namedIn_congr {inner inner' : List Char → Prop} {body : List Char}
    (h : ∀ ts, lex (String.ofList body) = .ok ts → ∀ t ∈ ts, t.kind = .template →
      (inner t.chars ↔ inner' t.chars)) :
    NamedIn inner body name ↔ NamedIn inner' body name := by
  refine exists_congr fun ts => and_congr_right fun hLex => or_congr_right ?_
  exact exists_congr fun t => and_congr_right fun ht => and_congr_right fun hKind =>
    h ts hLex t ht hKind

theorem mem_significant_iff {ts : List Token} {l : Lexeme} (hKind : l.kind = .template) :
    l ∈ (ts.filter (·.isSignificant)).map Token.toLexeme ↔ ∃ t ∈ ts, t.toLexeme = l := by
  simp only [List.mem_map, List.mem_filter]
  refine exists_congr fun t => ⟨fun h => ⟨h.1.1, h.2⟩, fun h => ⟨⟨h.1, ?_⟩, h.2⟩⟩
  rw [h.2, Lexeme.isSignificant, hKind]
  rfl

theorem mem_namesOfBody_iff {fuel : Nat} {body : List Char} :
    name ∈ namesOfBody fuel body ↔ NamedIn (name ∈ namesIn fuel ·) body name := by
  rw [namesOfBody, NamedIn]
  cases lex (String.ofList body) with
  | error e => simp
  | ok ts =>
    simp only [List.mem_flatMap, mem_freeWords_iff, Option.or_none, Except.ok.injEq, exists_eq_left']
    constructor
    · rintro ⟨l, ⟨pre, post, hSplit, hWord⟩, hName⟩
      rcases hWord with hKind | ⟨hKind, hFree⟩
      · have hMem : l ∈ (ts.filter (·.isSignificant)).map Token.toLexeme := by simp [hSplit]
        obtain ⟨t, ht, rfl⟩ := (mem_significant_iff hKind).mp hMem
        rw [if_pos hKind] at hName
        exact .inr ⟨t, ht, hKind, hName⟩
      · rw [hKind, if_neg (by decide), List.mem_singleton] at hName
        exact .inl ⟨pre, l, post, hSplit, hKind, hFree, hName.symm⟩
    · rintro (⟨pre, l, post, hSplit, hKind, hFree, rfl⟩ | ⟨t, ht, hKind, hName⟩)
      · refine ⟨l, ⟨pre, post, hSplit, .inr ⟨hKind, hFree⟩⟩, ?_⟩
        rw [hKind, if_neg (by decide)]
        exact List.mem_singleton_self _
      · obtain ⟨pre, post, hSplit⟩ :=
          List.append_of_mem ((mem_significant_iff hKind).mpr ⟨t, ht, rfl⟩)
        exact ⟨t.toLexeme, ⟨pre, post, hSplit, .inl hKind⟩, by rwa [if_pos hKind]⟩

theorem mentions_iff {cs : List Char} :
    Mentions cs name ↔ ∃ body, .substitution body ∈ Template.parts 0 cs.tail ∧
      NamedIn (Mentions · name) body name := by
  constructor
  · intro h
    cases h with
    | word hBody hLex hSplit hKind hFree =>
      exact ⟨_, hBody, _, hLex, .inl ⟨_, _, _, hSplit, hKind, hFree, rfl⟩⟩
    | template hBody hLex hToken hKind hInner =>
      exact ⟨_, hBody, _, hLex, .inr ⟨_, hToken, hKind, hInner⟩⟩
  · rintro ⟨body, hBody, ts, hLex, ⟨pre, l, post, hSplit, hKind, hFree, rfl⟩ | ⟨t, ht, hKind, hInner⟩⟩
    · exact .word hBody hLex hSplit hKind hFree
    · exact .template hBody hLex ht hKind hInner

/-! ## Names in a whole template -/

theorem mem_namesIn_iff {inner : List Char → Prop} {cs : List Char} {ps : List Template.Part}
    {fuel : Nat} (h : Template.Composed cs ps)
    (hClear : ∀ p ∈ ps, Clear p)
    (hInner : ∀ body, .substitution body ∈ ps → ∀ fuel, body.length < fuel →
      (name ∈ namesOfBody fuel body ↔ NamedIn inner body name)) (hFuel : cs.length < fuel) :
    name ∈ namesIn fuel cs ↔ ∃ body, .substitution body ∈ ps ∧ NamedIn inner body name := by
  induction h generalizing fuel with
  | close =>
    obtain ⟨fuel, rfl⟩ := Nat.exists_eq_add_of_lt hFuel
    simp [namesIn]
  | @escape c cs ps hRest ih =>
    simp only [List.length_cons] at hFuel
    obtain ⟨fuel, rfl⟩ : ∃ k, fuel = k + 2 := ⟨fuel - 2, by omega⟩
    have hEscaped : ¬(c = '$' ∧ cs.head? = some '{') := by
      rintro ⟨rfl, hHead⟩
      obtain ⟨tail, rfl⟩ := List.head?_eq_some_iff.mp hHead
      exact hClear _ List.mem_cons_self ⟨tail, rfl⟩
    have hTail := ih (fun p hp => hClear p (List.mem_cons_of_mem _ hp))
      (fun body hBody => hInner body (List.mem_cons_of_mem _ hBody)) (by omega : cs.length < fuel)
    rw [namesIn_plain (by simp), namesIn_plain hEscaped, hTail]
    simp
  | @substitution body cs ps hRest ih =>
    simp only [List.length_cons, List.length_append] at hFuel
    obtain ⟨fuel, rfl⟩ : ∃ k, fuel = k + 2 := ⟨fuel - 2, by omega⟩
    have hTail := ih (fun p hp => hClear p (List.mem_cons_of_mem _ hp))
      (fun body hBody => hInner body (List.mem_cons_of_mem _ hBody)) (by omega : cs.length < fuel)
    have hOwn := hInner body List.mem_cons_self (fuel + 1) (by omega)
    rw [namesIn_substitution (hClear (.substitution body) List.mem_cons_self), List.mem_append, hOwn,
      namesIn_plain (by simp), hTail]
    simp
  | @plain c cs ps hOpen hRest ih =>
    obtain ⟨fuel, rfl⟩ := Nat.exists_eq_add_of_le' (Nat.one_le_of_lt hFuel)
    rw [namesIn_plain hOpen]
    exact ih hClear hInner (Nat.lt_of_succ_lt_succ hFuel)

theorem chars_of_template {text : String} {ts : List Token} {t : Token} (h : lex text = .ok ts)
    (ht : t ∈ ts) (hKind : t.kind = .template) :
    ∃ tail, t.chars = '\x60' :: tail ∧ Template.Spent [.literal 0] tail ∧
      t.chars.length ≤ text.toList.length := by
  obtain ⟨us, vs, rfl⟩ := List.append_of_mem ht
  obtain ⟨c, pre, rest, hText, hChars, hReads⟩ := (cuts_of_lex h).reads
  obtain ⟨rfl, hBody⟩ := hReads.body_of_template hKind
  refine ⟨pre, hChars, (Template.scanLiteral_eq_length_iff _ _).mp hBody, ?_⟩
  rw [hText, hChars]
  simp only [List.length_append, List.length_cons]
  omega

theorem Regular.mem_namesIn_iff {cs : List Char} (h : Regular cs) {fuel : Nat} {tail : List Char}
    (hChars : cs = '\x60' :: tail) (hSpent : Template.Spent [.literal 0] tail)
    (hFuel : cs.length < fuel) : name ∈ namesIn fuel cs ↔ Mentions cs name := by
  induction h generalizing fuel tail with
  | @intro cs hClear hNested ih =>
    subst hChars
    obtain ⟨fuel, rfl⟩ := Nat.exists_eq_add_of_le' (Nat.one_le_of_lt hFuel)
    rw [namesIn_plain (by simp), mentions_iff]
    refine UnusedNames.mem_namesIn_iff (Template.composed_parts tail hSpent) hClear ?_
      (Nat.lt_of_succ_lt_succ hFuel)
    intro body hBody fuel hLength
    rw [mem_namesOfBody_iff]
    -- a template inside the body is no longer than the body
    refine namedIn_congr fun ts hLex t ht hKind => ?_
    obtain ⟨inner, hTick, hInner, hLe⟩ := chars_of_template hLex ht hKind
    rw [String.toList_ofList] at hLe
    exact ih body ts hBody hLex t ht hKind hTick hInner (by omega)

/-! ## Names that count as used -/

theorem mem_usedNames_iff {c : Code} {declared : List Nat} :
    name ∈ usedNames c declared ↔ ∃ p l, c.at? p = some l ∧
      ((l.kind = .identifier ∧ p ∉ declared ∧ isReference c p = true ∧ l.text = name) ∨
        (l.kind = .template ∧ name ∈ templateIdentifiers l.text)) := by
  rw [usedNames, List.mem_flatMap]
  refine exists_congr fun p => ?_
  cases hAt : c.at? p with
  | none => simp
  | some l =>
    have hp : p ∈ c.positions := by
      rw [Code.positions, List.mem_range]
      exact (Array.getElem?_eq_some_iff.mp hAt).1
    simp only [hp, true_and, Option.some.injEq, exists_eq_left']
    by_cases hIdentifier : l.kind = .identifier
    · simp [hIdentifier, and_assoc, @eq_comm _ name]
    · simp [hIdentifier]

theorem exists_position_iff {u : SourceUnit} {l : Lexeme} :
    (∃ p, u.code.at? p = some l) ↔ ∃ t ∈ u.tokens.toList, t.isSignificant ∧ t.toLexeme = l := by
  have hAt (p : Nat) : u.code.at? p = (u.significantTokens.map Token.toLexeme)[p]? :=
    List.getElem?_toArray
  simp only [hAt, ← List.mem_iff_getElem?, SourceUnit.significantTokens, List.mem_map,
    List.mem_filter, and_assoc]

theorem mem_templateIdentifiers_iff {text : String} {ts : List Token} {t : Token}
    (hLex : lex text = .ok ts) (ht : t ∈ ts) (hKind : t.kind = .template)
    (hRegular : Regular t.chars) : name ∈ templateIdentifiers t.text ↔ Mentions t.chars name := by
  obtain ⟨tail, hChars, hSpent, -⟩ := chars_of_template hLex ht hKind
  exact hRegular.mem_namesIn_iff hChars hSpent (Nat.lt_succ_self _)

/-- The templates of a unit are those of its code. -/
theorem mem_usedNames_code_iff {u : SourceUnit} {declared : List Nat} :
    name ∈ usedNames u.code declared ↔
      (∃ p l, u.code.at? p = some l ∧ l.kind = .identifier ∧ p ∉ declared ∧
        isReference u.code p = true ∧ l.text = name) ∨
      ∃ t ∈ u.tokens.toList, t.kind = .template ∧ name ∈ templateIdentifiers t.text := by
  rw [mem_usedNames_iff]
  simp only [and_or_left, exists_or]
  refine or_congr_right ⟨?_, ?_⟩
  · rintro ⟨p, l, hAt, hKind, hName⟩
    obtain ⟨t, ht, -, rfl⟩ := exists_position_iff.mp ⟨p, hAt⟩
    exact ⟨t, ht, hKind, hName⟩
  · rintro ⟨t, ht, hKind, hName⟩
    have hSignificant : t.isSignificant := by
      rw [Lexeme.isSignificant, hKind]
      rfl
    obtain ⟨p, hAt⟩ := exists_position_iff.mpr ⟨t, ht, hSignificant, rfl⟩
    exact ⟨p, _, hAt, hKind, hName⟩

/-- The names that are found in a template are those its substitutions read, provided that braces
alone tell where these begin and end; and these names, with those of the identifiers that are
references, are all that counts as used. -/
theorem template_names_used (path text : String) (u : SourceUnit)
    (h : SourceUnit.parse path text = .ok u) :
    (∀ t ∈ u.tokens.toList, t.kind = .template → Regular t.chars → ∀ name,
      (name ∈ templateIdentifiers t.text ↔ Mentions t.chars name) ∧
      (Mentions t.chars name → ∀ declared, name ∈ usedNames u.code declared)) ∧
    ((∀ t ∈ u.tokens.toList, t.kind = .template → Regular t.chars) → ∀ declared name,
      name ∈ usedNames u.code declared ↔
        (∃ p l, u.code.at? p = some l ∧ l.kind = .identifier ∧ p ∉ declared ∧
          isReference u.code p = true ∧ l.text = name) ∨
        ∃ t ∈ u.tokens.toList, t.kind = .template ∧ Mentions t.chars name) := by
  have hLex := SourceUnit.lex_tokens h
  constructor
  · intro t ht hKind hRegular name
    have hExact : name ∈ templateIdentifiers t.text ↔ Mentions t.chars name :=
      mem_templateIdentifiers_iff hLex ht hKind hRegular
    exact ⟨hExact, fun hMentions declared =>
      mem_usedNames_code_iff.mpr (.inr ⟨t, ht, hKind, hExact.mpr hMentions⟩)⟩
  · intro hRegular declared name
    rw [mem_usedNames_code_iff]
    refine or_congr_right (exists_congr fun t => and_congr_right fun ht => ?_)
    exact and_congr_right fun hKind => mem_templateIdentifiers_iff hLex ht hKind (hRegular t ht hKind)

theorem regular_of_parts {cs body : List Char} {ts : List Token}
    (hParts : Template.parts 0 cs.tail = [.substitution body]) (hBraces : BracesPair body)
    (hLex : lex (String.ofList body) = .ok ts)
    (hNested : ∀ t ∈ ts, t.kind = .template → Regular t.chars) : Regular cs := by
  constructor
  · rw [hParts]
    simpa [Clear] using hBraces
  · simp only [hParts, List.mem_singleton, Template.Part.substitution.injEq]
    rintro _ ts' rfl hTokens
    cases hLex.symm.trans hTokens
    exact hNested

theorem template_names_used_nested :
    let text := "\x60$\x7bf(\x7ba\x7d.b, \x60$\x7bc\x7d\x60)\x7d\x60"
    ∃ u, SourceUnit.parse "a.js" text = .ok u ∧
      (∀ name, Mentions text.toList name ↔ name ∈ ["f", "a", "c"]) ∧
      ∀ declared, "c" ∈ usedNames u.code declared := by
  intro text
  let body := "f(\x7ba\x7d.b, \x60$\x7bc\x7d\x60)".toList
  let inner := "\x60$\x7bc\x7d\x60"
  have hInner : Regular inner.toList := by
    have hLex : lex (String.ofList ['c']) = .ok [⟨⟨.identifier, "c", 1⟩, 0, 1⟩] :=
      toOption_eq_some_iff.mp (by decide +kernel)
    refine regular_of_parts (by decide +kernel) ⟨by decide, by decide⟩ hLex fun t ht hKind => ?_
    cases List.mem_singleton.mp ht
    cases hKind
  have hOuter : Regular text.toList := by
    obtain ⟨ts, hLex, hAll⟩ : ∃ ts, lex (String.ofList body) = .ok ts ∧
        ∀ t ∈ ts, t.kind = .template → t.text = inner :=
      exists_ok (by decide +kernel)
    have hParts : Template.parts 0 text.toList.tail = [.substitution body] := by decide +kernel
    refine regular_of_parts hParts ⟨by decide +kernel, by decide +kernel⟩ hLex fun t ht hKind => ?_
    rw [Lexeme.chars, hAll t ht hKind]
    exact hInner
  obtain ⟨u, hu, hTokens⟩ : ∃ u, SourceUnit.parse "a.js" text = .ok u ∧
      u.tokens = #[⟨⟨.template, text, 1⟩, 0, 1⟩] :=
    exists_ok (by decide +kernel)
  have hMem : (⟨⟨.template, text, 1⟩, 0, 1⟩ : Token) ∈ u.tokens.toList := by
    rw [hTokens]
    exact List.mem_singleton_self _
  have hNames : templateIdentifiers text = ["f", "a", "c"] := by decide +kernel
  have hExact (name : String) := (template_names_used "a.js" text u hu).1 _ hMem rfl hOuter name
  have hMentions (name : String) : Mentions text.toList name ↔ name ∈ ["f", "a", "c"] := by
    rw [← hNames]
    exact (hExact name).1.symm
  exact ⟨u, hu, hMentions, (hExact "c").2 ((hMentions "c").mpr (by decide))⟩

theorem template_names_used_exceptions :
    let escaped := "\x60\\$\x7ba\x7d\x60"
    let quoted := "\x60$\x7b'\x7d' + a\x7d\x60"
    ∃ u v, SourceUnit.parse "a.js" ("const a = 1;\nx(" ++ escaped ++ ");\n") = .ok u ∧
      SourceUnit.parse "a.js" ("const a = 1;\nx(" ++ quoted ++ ");\n") = .ok v ∧
      (¬Mentions escaped.toList "a" ∧ "a" ∈ templateIdentifiers escaped ∧
        rule.check u .empty = []) ∧
      Mentions quoted.toList "a" ∧ "a" ∉ templateIdentifiers quoted ∧
        rule.check v .empty = [⟨"'a' is assigned a value but never used.", 1, 7⟩] := by
  intro escaped quoted
  obtain ⟨u, hu, hSilent⟩ : ∃ u,
      SourceUnit.parse "a.js" ("const a = 1;\nx(" ++ escaped ++ ");\n") = .ok u ∧
      rule.check u .empty = [] :=
    exists_ok (by decide +kernel)
  obtain ⟨v, hv, hReported⟩ : ∃ v,
      SourceUnit.parse "a.js" ("const a = 1;\nx(" ++ quoted ++ ");\n") = .ok v ∧
      rule.check v .empty = [⟨"'a' is assigned a value but never used.", 1, 7⟩] :=
    exists_ok (by decide +kernel)
  have hNone : ¬Mentions escaped.toList "a" := by
    have hParts : Template.parts 0 escaped.toList.tail = [.escape "$\x7ba\x7d\x60".toList] := by
      decide +kernel
    rw [mentions_iff, hParts]
    simp
  have hWord : Mentions quoted.toList "a" := by
    have hParts : Template.parts 0 quoted.toList.tail = [.substitution "'\x7d' + a".toList] := by
      decide +kernel
    let tokens : List Token :=
      [⟨⟨.string, "'\x7d'", 1⟩, 0, 1⟩, ⟨⟨.whitespace, " ", 1⟩, 3, 4⟩, ⟨⟨.punctuator, "+", 1⟩, 4, 5⟩,
        ⟨⟨.whitespace, " ", 1⟩, 5, 6⟩, ⟨⟨.identifier, "a", 1⟩, 6, 7⟩]
    have hLex : lex (String.ofList "'\x7d' + a".toList) = .ok tokens :=
      toOption_eq_some_iff.mp (by decide +kernel)
    have hSplit : (tokens.filter (·.isSignificant)).map Token.toLexeme =
        [⟨.string, "'\x7d'", 1⟩, ⟨.punctuator, "+", 1⟩] ++ ⟨.identifier, "a", 1⟩ :: [] := rfl
    exact .word (hParts ▸ List.mem_singleton_self _) hLex hSplit rfl rfl
  exact ⟨u, v, hu, hv, ⟨hNone, by decide +kernel, hSilent⟩, hWord, by decide +kernel,
    hReported⟩

end UnusedNames

end RuleScout
