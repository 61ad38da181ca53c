import Mathlib.Computability.Language
import RuleScout.Proofs.Lexeme
import RuleScout.Proofs.Spelling

/-!
# Literals as languages

Strings and regular expressions are words of regular languages: an opening mark, pieces that are
an escape or a character which is not excluded, and a closing mark. The scanners recognise these
languages. Behind a place of a text at most one slice is such a word, a scanner finds it if it is
there, and it fails if it is not.
-/

set_option autoImplicit false

namespace RuleScout

open Text
open scoped Computability

/-- Where the text goes on with `c`, `scan` finds the end of the one slice from there on that is in
`L`, if there is one. Whether a slice is in `L` may depend on what is behind it. -/
structure Recognises (scan : List Char → Option Nat) (c : Char)
    (L : List Char → List Char → Prop) : Prop where
  ends : ∀ before cs stop,
    (scan cs).map (fun n => extent (before ++ c :: cs.take n)) = some stop ↔
      ∃ slice rest, c :: cs = slice ++ rest ∧ L slice rest ∧ stop = extent (before ++ slice)
  unique : ∀ cs slice rest slice' rest', c :: cs = slice ++ rest → L slice rest →
    c :: cs = slice' ++ rest' → L slice' rest' → slice = slice'
  fails : ∀ cs, scan cs = none ↔ ∀ slice rest, c :: cs = slice ++ rest → ¬L slice rest

section Recognition

variable {scan : List Char → Option Nat} {c : Char} {L : List Char → List Char → Prop}

theorem exists_slice_iff (hNil : ∀ rest, ¬L [] rest) {cs : List Char} {P : List Char → Prop} :
    (∃ slice rest, c :: cs = slice ++ rest ∧ L slice rest ∧ P slice) ↔
      ∃ pre rest, cs = pre ++ rest ∧ L (c :: pre) rest ∧ P (c :: pre) := by
  constructor
  · rintro ⟨slice, rest, hSplit, hSlice, hP⟩
    cases slice with
    | nil => exact absurd hSlice (hNil rest)
    | cons d pre =>
      cases hSplit
      exact ⟨pre, rest, rfl, hSlice, hP⟩
  · rintro ⟨pre, rest, rfl, hSlice, hP⟩
    exact ⟨c :: pre, rest, rfl, hSlice, hP⟩

theorem recognises_of_iff (hNil : ∀ rest, ¬L [] rest)
    (h : ∀ cs n, scan cs = some n ↔
      ∃ pre rest, cs = pre ++ rest ∧ pre.length = n ∧ L (c :: pre) rest) :
    Recognises scan c L := by
  have hFound (cs : List Char) (P : List Char → Prop) :
      (∃ n, scan cs = some n ∧ P (c :: cs.take n)) ↔
        ∃ slice rest, c :: cs = slice ++ rest ∧ L slice rest ∧ P slice := by
    rw [exists_slice_iff hNil]
    simp only [h]
    constructor
    · rintro ⟨n, ⟨pre, rest, rfl, rfl, hSlice⟩, hP⟩
      rw [List.take_left] at hP
      exact ⟨pre, rest, rfl, hSlice, hP⟩
    · rintro ⟨pre, rest, rfl, hSlice, hP⟩
      refine ⟨pre.length, ⟨pre, rest, rfl, rfl, hSlice⟩, ?_⟩
      rwa [List.take_left]
  constructor
  case ends =>
    intro before cs stop
    rw [Option.map_eq_some_iff]
    simp only [@eq_comm _ _ stop]
    exact hFound cs fun slice => stop = extent (before ++ slice)
  case unique =>
    intro cs slice rest slice' rest' hSplit hSlice hSplit' hSlice'
    obtain ⟨n, hn, hTake⟩ := (hFound cs (· = slice)).mpr ⟨slice, rest, hSplit, hSlice, rfl⟩
    obtain ⟨m, hm, hTake'⟩ := (hFound cs (· = slice')).mpr ⟨slice', rest', hSplit', hSlice', rfl⟩
    cases hn.symm.trans hm
    exact hTake.symm.trans hTake'
  case fails =>
    intro cs
    have hNone := (hFound cs fun _ => True).not
    simpa [Option.eq_none_iff_forall_ne_some] using hNone

/-- A scanner that needs nothing of what is behind a word. -/
theorem Delimited.recognises {words : Language Char} (hScan : Delimited scan) (hNil : [] ∉ words)
    (h : ∀ cs, scan cs = some cs.length ↔ c :: cs ∈ words) :
    Recognises scan c fun slice _ => slice ∈ words := by
  refine recognises_of_iff (fun _ => hNil) fun cs n => ?_
  constructor
  · intro hFound
    obtain ⟨pre, rest, hSplit, hLength, hAlone⟩ := hScan.split hFound
    exact ⟨pre, rest, hSplit, hLength, (h pre).mp hAlone⟩
  · rintro ⟨pre, rest, rfl, rfl, hWord⟩
    exact hScan.append ((h pre).mpr hWord) rest

end Recognition

namespace Literal

/-! ## The languages -/

/-- A backslash and any one character. -/
def escape : Language Char := {w | ∃ c, w = ['\\', c]}

/-- Any one character but those listed. -/
def anyExcept (excluded : List Char) : Language Char := {w | ∃ c, c ∉ excluded ∧ w = [c]}

/-- Escapes and characters between two marks. -/
def piecesExcept (excluded : List Char) : Language Char := (escape + anyExcept ('\\' :: excluded))∗

def lineBreaks : List Char := ['\n', '\r']

def stringLiteral (quote : Char) : Language Char :=
  {[quote]} * piecesExcept (quote :: lineBreaks) * {[quote]}

def characterClass : Language Char :=
  {['[']} * piecesExcept (']' :: lineBreaks) * {[']']}

def regexPiece : Language Char :=
  escape + characterClass + anyExcept ('/' :: '[' :: '\\' :: lineBreaks)

def regexBody : Language Char := {['/']} * regexPiece∗ * {['/']}

/-- The body of a regular expression and all the flags behind it. -/
def IsRegex (slice rest : List Char) : Prop :=
  ∃ body flags, slice = body ++ flags ∧ body ∈ regexBody ∧ LongestRun isFlag flags rest

/-! ## Repetition in front of a language -/

section Repetition

variable {l t : Language Char} {u w : List Char}

theorem mem_kstar_mul_of_mem (h : w ∈ t) : w ∈ l∗ * t :=
  Language.append_mem_mul (Language.nil_mem_kstar l) h

theorem append_mem_kstar_mul (hu : u ∈ l) (hw : w ∈ l∗ * t) : u ++ w ∈ l∗ * t := by
  have hLe : l * (l∗ * t) ≤ l∗ * t := by
    rw [← mul_assoc]
    exact mul_le_mul_left mul_kstar_le_kstar t
  exact hLe (Language.append_mem_mul hu hw)

theorem kstar_mul_induction {P : List Char → Prop} (hEnd : ∀ v ∈ t, P v)
    (hStep : ∀ u ∈ l, ∀ v, P v → P (u ++ v)) (hw : w ∈ l∗ * t) : P w := by
  have hLe : l∗ * t ≤ {v : List Char | P v} := by
    apply kstar_mul_le
    · exact hEnd
    · intro w hw
      obtain ⟨u, hu, v, hv, rfl⟩ := Language.mem_mul.mp hw
      exact hStep u hu v hv
  exact hLe hw

theorem singleton_mul_iff {c : Char} : w ∈ {[c]} * t ↔ ∃ v ∈ t, w = c :: v := by
  rw [Language.mem_mul]
  constructor
  · rintro ⟨_, rfl, v, hv, rfl⟩
    exact ⟨v, hv, rfl⟩
  · rintro ⟨v, hv, rfl⟩
    exact ⟨[c], rfl, v, hv, rfl⟩

theorem cons_mem_singleton_mul_iff {c : Char} : c :: w ∈ {[c]} * t ↔ w ∈ t := by
  simp [singleton_mul_iff]

end Repetition

section Pieces

variable {excluded : List Char} {t : Language Char} {w : List Char} {c : Char}

theorem escape_mem_pieces_mul (hw : w ∈ piecesExcept excluded * t) :
    '\\' :: c :: w ∈ piecesExcept excluded * t :=
  append_mem_kstar_mul (u := ['\\', c]) (.inl ⟨c, rfl⟩) hw

theorem cons_mem_pieces_mul (hc : c ∉ '\\' :: excluded) (hw : w ∈ piecesExcept excluded * t) :
    c :: w ∈ piecesExcept excluded * t :=
  append_mem_kstar_mul (u := [c]) (.inr ⟨c, hc, rfl⟩) hw

theorem pieces_mul_induction {P : List Char → Prop} (hEnd : ∀ v ∈ t, P v)
    (hEscape : ∀ c v, P v → P ('\\' :: c :: v))
    (hAny : ∀ c ∉ '\\' :: excluded, ∀ v, P v → P (c :: v)) (hw : w ∈ piecesExcept excluded * t) :
    P w := by
  refine kstar_mul_induction hEnd (fun u hu v hv => ?_) hw
  rcases hu with ⟨c, rfl⟩ | ⟨c, hc, rfl⟩
  · exact hEscape c v hv
  · exact hAny c hc v hv

end Pieces

/-! ## Strings -/

theorem stringBody_iff {quote : Char} {cs : List Char} :
    StringBody quote cs ↔ cs ∈ piecesExcept (quote :: lineBreaks) * {[quote]} := by
  constructor
  · intro h
    induction h with
    | close => exact mem_kstar_mul_of_mem rfl
    | escape c hRest ih => exact escape_mem_pieces_mul ih
    | plain hEscape hBreak hQuote hRest ih =>
      exact cons_mem_pieces_mul (by simp [lineBreaks, hEscape, hBreak, hQuote]) ih
  · refine pieces_mul_induction ?_ (fun c v => .escape c) ?_
    · rintro v rfl
      exact .close
    · intro c hc v hv
      simp only [lineBreaks, List.mem_cons, List.not_mem_nil, or_false, not_or] at hc
      exact .plain hc.1 hc.2.2 hc.2.1 hv

/-! ## Regular expressions -/

/-- What is read inside a class is the rest of the class and then the rest of the body. -/
def regexRest (inClass : Bool) : Language Char :=
  if inClass then piecesExcept (']' :: lineBreaks) * ({[']']} * (regexPiece∗ * {['/']}))
  else regexPiece∗ * {['/']}

theorem regexRest_of_body {inClass : Bool} {cs : List Char} (h : RegexBody inClass cs) :
    cs ∈ regexRest inClass := by
  induction h with
  | close => exact mem_kstar_mul_of_mem rfl
  | @escape inClass c cs hRest ih =>
    cases inClass with
    | false => exact append_mem_kstar_mul (u := ['\\', c]) (.inl (.inl ⟨c, rfl⟩)) ih
    | true => exact escape_mem_pieces_mul ih
  | @enter inClass cs hRest ih =>
    cases inClass with
    | false =>
      have hClass : '[' :: cs ∈ characterClass * (regexPiece∗ * {['/']}) := by
        rw [characterClass, mul_assoc, mul_assoc]
        exact cons_mem_singleton_mul_iff.mpr ih
      obtain ⟨u, hu, v, hv, hSplit⟩ := Language.mem_mul.mp hClass
      rw [← hSplit]
      exact append_mem_kstar_mul (.inl (.inr hu)) hv
    | true => exact cons_mem_pieces_mul (by decide) ih
  | @leave inClass cs hRest ih =>
    cases inClass with
    | false => exact append_mem_kstar_mul (u := [']']) (.inr ⟨']', by decide, rfl⟩) ih
    | true => exact mem_kstar_mul_of_mem (cons_mem_singleton_mul_iff.mpr ih)
  | @plain inClass c cs hEscape hOpen hClose hBreak hSlash hRest ih =>
    cases inClass with
    | false =>
      exact append_mem_kstar_mul (u := [c])
        (.inr ⟨c, by simpa [lineBreaks, hEscape, hOpen, hBreak] using hSlash, rfl⟩) ih
    | true => exact cons_mem_pieces_mul (by simp [lineBreaks, hEscape, hClose, hBreak]) ih

theorem body_of_regexRest {cs : List Char} (h : cs ∈ regexRest false) : RegexBody false cs := by
  refine kstar_mul_induction ?_ (fun u hu v hv => ?_) h
  · rintro v rfl
    exact .close
  · rcases hu with (⟨c, rfl⟩ | hu) | ⟨c, hc, rfl⟩
    · exact .escape c hv
    · rw [characterClass, mul_assoc] at hu
      obtain ⟨w, hw, rfl⟩ := singleton_mul_iff.mp hu
      -- behind the bracket the words of the class are read, whatever stands behind the class
      have hInside : RegexBody true (w ++ v) := by
        refine pieces_mul_induction (P := fun w => RegexBody true (w ++ v)) ?_ ?_ ?_ hw
        · rintro w rfl
          exact .leave hv
        · exact fun c w hRest => .escape c hRest
        · intro c hc w hRest
          simp only [lineBreaks, List.mem_cons, List.not_mem_nil, or_false, not_or] at hc
          rcases eq_or_ne c '[' with rfl | hOpen
          · exact .enter hRest
          · exact .plain hc.1 hOpen hc.2.1 hc.2.2 (by simp) hRest
      exact .enter hInside
    · simp only [lineBreaks, List.mem_cons, List.not_mem_nil, or_false, not_or] at hc
      obtain ⟨hSlash, hOpen, hEscape, hBreak⟩ := hc
      rcases eq_or_ne c ']' with rfl | hClose
      · exact .leave hv
      · exact .plain hEscape hOpen hClose hBreak (by simp [hSlash]) hv

theorem regexBody_iff {cs : List Char} : RegexBody false cs ↔ '/' :: cs ∈ regexBody := by
  rw [regexBody, mul_assoc, cons_mem_singleton_mul_iff]
  exact ⟨regexRest_of_body, body_of_regexRest⟩

/-! ## The scanners -/

theorem scanString_recognises {quote : Char} (hQuote : quote ∉ '\\' :: lineBreaks) :
    Recognises (scanString quote) quote fun slice _ => slice ∈ stringLiteral quote := by
  simp only [lineBreaks, List.mem_cons, List.not_mem_nil, or_false, not_or] at hQuote
  apply (scanString_delimited quote hQuote.1).recognises
  · simp [stringLiteral, mul_assoc, singleton_mul_iff]
  · intro cs
    rw [scanString_eq_length_iff hQuote.2, stringBody_iff, stringLiteral, mul_assoc,
      cons_mem_singleton_mul_iff]

theorem scanRegex_recognises : Recognises scanRegex '/' IsRegex := by
  apply recognises_of_iff
  · rintro rest ⟨body, flags, hNil, hBody, -⟩
    rw [(List.append_eq_nil_iff.mp hNil.symm).1, regexBody, mul_assoc, singleton_mul_iff] at hBody
    simp at hBody
  · intro cs n
    rw [scanRegex_eq_iff]
    simp only [scanRegexBody_eq_length_iff, regexBody_iff]
    constructor
    · rintro ⟨body, flags, rest, rfl, rfl, hBody, hFlags⟩
      exact ⟨body ++ flags, rest, rfl, rfl, '/' :: body, flags, rfl, hBody, hFlags⟩
    · rintro ⟨pre, rest, rfl, rfl, body, flags, hSlice, hBody, hFlags⟩
      have hWord := hBody
      rw [regexBody, mul_assoc, singleton_mul_iff] at hWord
      obtain ⟨inner, -, rfl⟩ := hWord
      cases hSlice
      exact ⟨inner, flags, rest, rfl, rfl, hBody, hFlags⟩

end Literal

namespace Cursor

variable {cur : Cursor} {c : Char} {cs : List Char}

theorem lexeme_string_error_iff (hQuote : c = '"' ∨ c = '\'') :
    cur.lexeme c cs = .error ⟨.unterminatedString, cur.offset⟩ ↔ Literal.scanString c cs = none := by
  have hSpacing : isSpacing '"' = false ∧ isSpacing '\'' = false := by decide
  cases hScan : Literal.scanString c cs with
  | none => rcases hQuote with rfl | rfl <;> simp [lexeme, hSpacing, hScan]
  | some n => rcases hQuote with rfl | rfl <;> simp [lexeme, hSpacing, hScan]

theorem lexeme_regex_error_iff (hAllowed : regexAllowed cur.previous = true)
    (hNext : cs.head? ≠ some '/' ∧ cs.head? ≠ some '*') :
    cur.lexeme '/' cs = .error ⟨.unterminatedRegex, cur.offset⟩ ↔ Literal.scanRegex cs = none := by
  have hSpacing : isSpacing '/' = false := by decide
  cases hScan : Literal.scanRegex cs with
  | none => simp [lexeme, hSpacing, hNext, hAllowed, hScan]
  | some n => simp [lexeme, hSpacing, hNext, hAllowed, hScan]

end Cursor

namespace Literal

/-- The scanners of strings and of regular expressions recognise their languages, and the lexer
reports a literal as unterminated exactly where no slice is a literal. -/
theorem literals_recognised (quote : Char) (hQuote : quote ∉ '\\' :: lineBreaks) :
    Recognises (scanString quote) quote (fun slice _ => slice ∈ stringLiteral quote) ∧
    Recognises scanRegex '/' IsRegex ∧
    (∀ cur : Cursor, ∀ cs, quote = '"' ∨ quote = '\'' →
      (cur.lexeme quote cs = .error ⟨.unterminatedString, cur.offset⟩ ↔
        ∀ slice rest, quote :: cs = slice ++ rest → slice ∉ stringLiteral quote)) ∧
    ∀ cur : Cursor, ∀ cs, regexAllowed cur.previous = true →
      cs.head? ≠ some '/' ∧ cs.head? ≠ some '*' →
      (cur.lexeme '/' cs = .error ⟨.unterminatedRegex, cur.offset⟩ ↔
        ∀ slice rest, '/' :: cs = slice ++ rest → ¬IsRegex slice rest) := by
  have hString := scanString_recognises hQuote
  refine ⟨hString, scanRegex_recognises, fun cur cs hMark => ?_, fun cur cs hAllowed hNext => ?_⟩
  · rw [Cursor.lexeme_string_error_iff hMark, hString.fails]
  · rw [Cursor.lexeme_regex_error_iff hAllowed hNext, scanRegex_recognises.fails]

theorem literals_recognised_escapes :
    '\'' ∉ '\\' :: lineBreaks ∧
    (∃ slice rest, "'it\\'s' + x".toList = slice ++ rest ∧ slice ∈ stringLiteral '\'' ∧
      7 = extent ([] ++ slice)) ∧
    (∀ slice rest, "'open\\'".toList = slice ++ rest → slice ∉ stringLiteral '\'') ∧
    ∃ slice rest, "/[/]\"\\/]/gi.test(s)".toList = slice ++ rest ∧ IsRegex slice rest ∧
      11 = extent ([] ++ slice) := by
  have hQuote : '\'' ∉ '\\' :: lineBreaks := by decide
  obtain ⟨hString, hRegex, hOpen, -⟩ := literals_recognised '\'' hQuote
  refine ⟨hQuote, ?_, ?_, ?_⟩
  · exact (hString.ends [] "it\\'s' + x".toList 7).mp (by decide)
  · exact (hOpen {} "open\\'".toList (.inr rfl)).mp (by decide +kernel)
  · exact (hRegex.ends [] "[/]\"\\/]/gi.test(s)".toList 11).mp (by decide)

end Literal

end RuleScout
