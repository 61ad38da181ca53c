import RuleScout.Proofs.Lexeme
import RuleScout.Proofs.TemplateBytes

/-!
# Cutting a whole text

A text is cut into tokens when each of them reads, at the cursor that those before it leave
behind, as a token in front of the others. Since a token does not change when the text behind it
is cut short, the first tokens are also the tokens of the text they make up.
-/

set_option autoImplicit false

namespace RuleScout

open Text

theorem join_texts_toList (ts : List Token) :
    (String.join (ts.map (·.text))).toList = ts.flatMap (·.chars) := by
  rw [String.toList_join, List.flatMap_map]
  rfl

/-- The tokens lie side by side, and together they are the text. The template literals among them
end where they end when they are read byte by byte. -/
structure Covers (text : String) (ts : List Token) : Prop where
  nonempty : ∀ t ∈ ts, t.text ≠ ""
  first : ∀ t ∈ ts.head?, t.start = 0
  next : ∀ i s t, ts[i]? = some s → ts[i + 1]? = some t → t.start = s.stop
  last : ∀ t ∈ ts.getLast?, t.stop = text.utf8ByteSize
  boundaries : ∀ t ∈ ts, String.Pos.Raw.IsValid text ⟨t.start⟩ ∧ String.Pos.Raw.IsValid text ⟨t.stop⟩
  slice : ∀ t ∈ ts, t.text.toByteArray = text.toByteArray.extract t.start t.stop
  joined : String.join (ts.map (·.text)) = text
  bytewise : ∀ t ∈ ts, t.kind = .template →
    Template.scanBytes [.literal t.start] (t.start + 1)
      (text.toByteArray.data.toList.drop (t.start + 1)) = .ok (t.stop - (t.start + 1))

section Starts

variable {text : String} {ts : List Token}
  (hStart : ∀ us t vs, ts = us ++ t :: vs → t.start = extent (us.flatMap (·.chars)))
include hStart

theorem start_next {s t : Token} {i : Nat} (hs : ts[i]? = some s) (ht : ts[i + 1]? = some t) :
    t.start = s.stop := by
  obtain ⟨hi, rfl⟩ := List.getElem?_eq_some_iff.mp hs
  obtain ⟨hNext, rfl⟩ := List.getElem?_eq_some_iff.mp ht
  have hAt : ts = ts.take i ++ ts[i] :: ts.drop (i + 1) := by
    rw [List.getElem_cons_drop, List.take_append_drop]
  have hAfter : ts = (ts.take i ++ [ts[i]]) ++ ts[i + 1] :: ts.drop (i + 2) := by
    rw [List.append_assoc, List.singleton_append, List.getElem_cons_drop]
    exact hAt
  rw [Token.stop, hStart _ _ _ hAt, hStart _ _ _ hAfter, List.flatMap_append, extent_append,
    List.flatMap_singleton]

variable (hText : ts.flatMap (·.chars) = text.toList)
include hText

/-- A token is what stands in the text between its two offsets. -/
theorem place_of_starts {t : Token} (ht : t ∈ ts) :
    ∃ before after, text = before ++ t.text ++ after ∧
      t.start = before.utf8ByteSize ∧ t.stop = (before ++ t.text).utf8ByteSize := by
  obtain ⟨us, vs, rfl⟩ := List.append_of_mem ht
  have hBefore : t.start = (String.join (us.map (·.text))).utf8ByteSize := by
    rw [hStart us t vs rfl, ← extent_toList, join_texts_toList]
  refine ⟨String.join (us.map (·.text)), String.join (vs.map (·.text)), ?_, hBefore, ?_⟩
  · apply String.toList_inj.mp
    rw [← hText, String.toList_append, String.toList_append, join_texts_toList, join_texts_toList,
      List.flatMap_append, List.flatMap_cons, List.append_assoc]
    rfl
  · rw [Token.stop, hBefore, String.utf8ByteSize_append, ← extent_toList t.text]
    rfl

theorem stop_last {t : Token} (ht : ts.getLast? = some t) : t.stop = text.utf8ByteSize := by
  obtain ⟨us, rfl⟩ := List.getLast?_eq_some_iff.mp ht
  rw [Token.stop, hStart us t [] rfl, ← extent_toList, ← hText]
  simp

end Starts

namespace Cursor

variable {cur : Cursor} {c : Char} {cs : List Char} {kind : TokenKind} {ts us vs : List Token}

theorem advance_offset (cur : Cursor) (cs : List Char) :
    (cur.advance cs).offset = cur.offset + extent cs := by
  induction cs generalizing cur with
  | nil => rfl
  | cons c cs ih =>
    rw [advance, extent_cons, ← Nat.add_assoc]
    split
    · exact ih _
    · exact ih _

theorem pass_offset (cur : Cursor) (t : Token) :
    (cur.pass t).offset = cur.offset + extent t.chars := by
  rw [← advance_offset, pass]
  split
  · rfl
  · rfl

theorem foldl_pass_offset (cur : Cursor) (us : List Token) :
    (us.foldl pass cur).offset = cur.offset + extent (us.flatMap (·.chars)) := by
  induction us generalizing cur with
  | nil => rfl
  | cons t us ih =>
    rw [List.foldl_cons, ih, pass_offset, List.flatMap_cons, extent_append, Nat.add_assoc]

/-- From the cursor on, the text consists of the tokens. -/
inductive Cuts : Cursor → List Char → List Token → Prop where
  | nil {cur : Cursor} : Cuts cur [] []
  | cons {cur : Cursor} {kind : TokenKind} {c : Char} {pre rest : List Char} {ts : List Token}
      (hReads : cur.Reads kind c pre rest)
      (hRest : Cuts (cur.pass (cur.token kind (c :: pre))) rest ts) :
      Cuts cur (c :: (pre ++ rest)) (cur.token kind (c :: pre) :: ts)

/-! ## The walk over the text -/

theorem tokens_skip (n : Nat) (cur : Cursor) (cs : List Char) :
    tokens n cur cs = tokens 0 cur (cs.drop n) := by
  induction cs generalizing n with
  | nil => rw [List.drop_nil, tokens, tokens]
  | cons c cs ih =>
    cases n with
    | zero => rfl
    | succ n => rw [tokens, List.drop_succ_cons, ih]

theorem tokens_append {pre rest : List Char} (h : cur.Reads kind c pre rest) :
    tokens 0 cur (c :: (pre ++ rest)) =
      (cur.token kind (c :: pre) :: ·) <$>
        tokens 0 (cur.pass (cur.token kind (c :: pre))) rest := by
  rw [tokens, lexeme_of_reads h]
  simp only
  rw [tokens_skip, List.take_left, List.drop_left]

theorem tokens_of_cuts (h : Cuts cur cs ts) : tokens 0 cur cs = .ok ts := by
  induction h with
  | nil => rw [tokens]
  | cons hReads _ ih =>
    rw [tokens_append hReads, ih]
    rfl

theorem cuts_of_tokens {cur : Cursor} {cs : List Char} {ts : List Token}
    (h : tokens 0 cur cs = .ok ts) : Cuts cur cs ts := by
  match cs with
  | [] =>
    rw [tokens] at h
    cases h
    exact .nil
  | c :: cs =>
    cases hLexeme : cur.lexeme c cs with
    | error e =>
      rw [tokens, hLexeme] at h
      cases h
    | ok found =>
      obtain ⟨kind, n⟩ := found
      obtain ⟨pre, rest, hSplit, -, hReads⟩ := lexeme_eq_ok_iff.mp hLexeme
      have hShorter : rest.length < (c :: cs).length := by
        rw [hSplit, List.length_cons, List.length_append]
        omega
      rw [hSplit, tokens_append hReads, map_eq_ok_iff] at h
      obtain ⟨more, hMore, rfl⟩ := h
      rw [hSplit]
      exact .cons hReads (cuts_of_tokens hMore)
termination_by cs.length

theorem tokens_eq_ok_iff : tokens 0 cur cs = .ok ts ↔ Cuts cur cs ts :=
  ⟨cuts_of_tokens, tokens_of_cuts⟩

/-! ## The tokens of a text -/

namespace Cuts

theorem chars_ne_nil (h : Cuts cur cs ts) : ∀ t ∈ ts, t.chars ≠ [] := by
  induction h with
  | nil =>
    intro t ht
    cases ht
  | cons _ _ ih =>
    intro t ht
    rcases List.mem_cons.mp ht with rfl | ht
    · simp [token, Lexeme.chars]
    · exact ih t ht

theorem flatMap_chars (h : Cuts cur cs ts) : ts.flatMap (·.chars) = cs := by
  induction h with
  | nil => rfl
  | cons _ _ ih =>
    rw [List.flatMap_cons, ih]
    simp [token, Lexeme.chars]

theorem start_head? (h : Cuts cur cs ts) : ∀ t ∈ ts.head?, t.start = cur.offset := by
  cases h with
  | nil =>
    intro t ht
    cases ht
  | cons _ _ =>
    intro t ht
    cases ht
    rfl

theorem split (h : Cuts cur cs (us ++ vs)) :
    ∃ pre rest, cs = pre ++ rest ∧ Cuts cur pre us ∧ Cuts (us.foldl pass cur) rest vs := by
  induction us generalizing cur cs with
  | nil => exact ⟨[], cs, rfl, .nil, h⟩
  | cons t us ih =>
    cases h with
    | @cons _ kind c pre rest ts hReads hRest =>
      obtain ⟨fore, aft, rfl, hFore, hAft⟩ := ih hRest
      -- the lexer has seen all of the text, but this token would be the same without the rest
      have hShort := hReads.shorten (List.prefix_append fore aft)
      exact ⟨c :: (pre ++ fore), aft, by simp, .cons hShort hFore, hAft⟩

theorem reads {t : Token} (h : Cuts cur cs (us ++ t :: vs)) :
    ∃ c pre rest, cs = us.flatMap (·.chars) ++ c :: (pre ++ rest) ∧ t.chars = c :: pre ∧
      (us.foldl pass cur).Reads t.kind c pre rest := by
  obtain ⟨fore, aft, rfl, hFore, hAft⟩ := h.split
  cases hAft with
  | @cons _ kind c pre rest _ hReads _ =>
    refine ⟨c, pre, rest, ?_, ?_, hReads⟩
    · rw [hFore.flatMap_chars]
    · exact String.toList_ofList

theorem start_eq {t : Token} (h : Cuts cur cs (us ++ t :: vs)) :
    t.start = cur.offset + extent (us.flatMap (·.chars)) := by
  obtain ⟨pre, rest, -, -, hRest⟩ := h.split
  rw [hRest.start_head? t rfl, foldl_pass_offset]

end Cuts

end Cursor

theorem scanBytes_template {text : String} {us vs : List Token} {t : Token}
    (h : Cursor.Cuts {} text.toList (us ++ t :: vs)) (hKind : t.kind = .template) :
    Template.scanBytes [.literal t.start] (t.start + 1)
      (text.toByteArray.data.toList.drop (t.start + 1)) = .ok (t.stop - (t.start + 1)) := by
  obtain ⟨c, pre, rest, hText, hChars, hReads⟩ := h.reads
  obtain ⟨rfl, hBody⟩ := hReads.body_of_template hKind
  have hStart : t.start = extent (us.flatMap (·.chars)) := by rw [h.start_eq, Nat.zero_add]
  have hInside : t.start + 1 = extent (us.flatMap (·.chars) ++ ['\x60']) := by
    rw [hStart, extent_append]
    rfl
  have hStop : t.stop - (t.start + 1) = extent pre := by
    have hTick : '\x60'.utf8Size = 1 := rfl
    rw [Token.stop, hChars, extent_cons, hTick, ← Nat.add_assoc, Nat.add_sub_cancel_left]
  rw [Cursor.foldl_pass_offset, Nat.zero_add, ← hStart] at hBody
  have hBytes : text.toByteArray.data.toList.drop (t.start + 1) = Template.bytes (pre ++ rest) := by
    rw [Template.toByteArray_toList, hText, List.append_cons, hInside, Template.drop_bytes_append]
  rw [hStop, hBytes]
  exact Template.scanBytes_of_scanLiteral hBody rest

theorem cuts_of_lex {text : String} {ts : List Token} (h : lex text = .ok ts) :
    Cursor.Cuts {} text.toList ts :=
  Cursor.tokens_eq_ok_iff.mp h

/-- A text that can be cut into tokens is covered by them. -/
theorem lex_lossless (text : String) (ts : List Token) (h : lex text = .ok ts) : Covers text ts := by
  have hCuts := cuts_of_lex h
  have hText := hCuts.flatMap_chars
  have hStart : ∀ us t vs, ts = us ++ t :: vs → t.start = extent (us.flatMap (·.chars)) := by
    rintro us t vs rfl
    rw [hCuts.start_eq, Nat.zero_add]
  have hNonempty : ∀ t ∈ ts, t.text ≠ "" := by
    intro t ht hEmpty
    exact hCuts.chars_ne_nil t ht (String.toList_eq_nil_iff.mpr hEmpty)
  constructor
  case nonempty => exact hNonempty
  case first =>
    intro t ht
    exact hCuts.start_head? t ht
  case next =>
    intro i s t
    exact start_next hStart
  case last =>
    intro t
    exact stop_last hStart hText
  case boundaries =>
    intro t ht
    obtain ⟨before, after, hSplit, hFrom, hTo⟩ := place_of_starts hStart hText ht
    constructor
    · exact String.Pos.Raw.isValid_iff_exists_append.mpr
        ⟨before, t.text ++ after, by rw [hSplit, String.append_assoc], by rw [hFrom]; rfl⟩
    · exact String.Pos.Raw.isValid_iff_exists_append.mpr
        ⟨before ++ t.text, after, hSplit, by rw [hTo]; rfl⟩
  case slice =>
    intro t ht
    obtain ⟨before, after, hSplit, hFrom, hTo⟩ := place_of_starts hStart hText ht
    have hLength : t.stop = before.utf8ByteSize + t.text.utf8ByteSize := by
      rw [hTo, String.utf8ByteSize_append]
    rw [hSplit, String.append_assoc, String.toByteArray_append, String.toByteArray_append, hFrom,
      hLength]
    exact (ByteArray.extract_append_size_add.trans (ByteArray.extract_append_eq_left rfl)).symm
  case joined =>
    apply String.toList_inj.mp
    rw [join_texts_toList, hText]
  case bytewise =>
    intro t ht hKind
    obtain ⟨us, vs, rfl⟩ := List.append_of_mem ht
    exact scanBytes_template hCuts hKind

theorem lex_lossless_template :
    let text := "#!é\r\n\x60é$\x7b'\\ü'\x7d\x60"
    let ts : List Token :=
      [⟨⟨.lineComment, "#!é\r", 1⟩, 0, 1⟩, ⟨⟨.newline, "\n", 2⟩, 5, 1⟩,
        ⟨⟨.template, "\x60é$\x7b'\\ü'\x7d\x60", 3⟩, 6, 1⟩]
    lex text = .ok ts ∧ Covers text ts := by
  intro text ts
  have hLex : lex text = .ok ts := toOption_eq_some_iff.mp (by decide +kernel)
  exact ⟨hLex, lex_lossless text ts hLex⟩

/-- The first tokens of a text are the tokens of the text they make up. -/
theorem lex_take (text : String) (ts : List Token) (h : lex text = .ok ts) (k : Nat) :
    lex (String.join ((ts.take k).map (·.text))) = .ok (ts.take k) := by
  have hCuts := cuts_of_lex h
  rw [← List.take_append_drop k ts] at hCuts
  obtain ⟨pre, rest, -, hPre, -⟩ := hCuts.split
  rw [lex, Cursor.tokens_eq_ok_iff, join_texts_toList, hPre.flatMap_chars]
  exact hPre

theorem lex_take_division :
    let ts : List Token :=
      [⟨⟨.identifier, "a", 1⟩, 0, 1⟩, ⟨⟨.punctuator, "/", 1⟩, 1, 2⟩, ⟨⟨.identifier, "b", 1⟩, 2, 3⟩,
        ⟨⟨.punctuator, "/", 1⟩, 3, 4⟩, ⟨⟨.identifier, "g", 1⟩, 4, 5⟩]
    lex "a/b/g" = .ok ts ∧ lex "a/" = .ok (ts.take 2) := by
  intro ts
  have hLex : lex "a/b/g" = .ok ts := toOption_eq_some_iff.mp (by decide +kernel)
  exact ⟨hLex, lex_take "a/b/g" ts hLex 2⟩

end RuleScout
