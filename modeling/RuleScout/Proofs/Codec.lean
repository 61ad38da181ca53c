import Mathlib.Data.List.Forall2
import RuleScout.Config.Codec
import RuleScout.Proofs.Fallible
import RuleScout.Proofs.NameMap

/-!
# Reading back what was written

A record is known by what its fields hold: `Encoded` says it of the fields of a configuration,
in whatever order they stand. Such a record is read as the configuration, and writing makes such a
record. Parser options that are null are the one thing that cannot be told from their absence,
and reading never makes them.
-/

set_option autoImplicit false

namespace RuleScout

/-! ## Severities and settings -/

theorem toLower_eq_iff {c d : Char} (hd : d.isLower = true) :
    c.toLower = d ↔ c = d ∨ c = d.toUpper := by
  have hRange : (decide ('a'.val ≤ d.val) && decide (d.val ≤ 'z'.val)) = true := hd
  rw [Bool.and_eq_true, decide_eq_true_eq, decide_eq_true_eq] at hRange
  have hUpper : d.toUpper.val = d.val + ('A'.val - 'a'.val) := by
    delta Char.toUpper
    rw [dif_pos hRange]
  have hDown : c.toLower.val =
      if 'A'.val ≤ c.val ∧ c.val ≤ 'Z'.val then c.val + ('a'.val - 'A'.val) else c.val := by
    delta Char.toLower
    split <;> rfl
  rw [Char.ext_iff, Char.ext_iff, Char.ext_iff, hUpper, hDown]
  simp only [UInt32.le_iff_toNat_le, ← UInt32.toNat_inj, UInt32.toNat_add, Char.reduceVal,
    UInt32.reduceToNat, UInt32.reduceSub] at hRange ⊢
  split
  · rw [UInt32.toNat_add]
    simp only [UInt32.reduceToNat]
    omega
  · omega

namespace Severity

/-- The word, each of its letters in lower or in upper case. -/
def AnyCase (text word : String) : Prop :=
  List.Forall₂ (fun c d => c = d ∨ c = d.toUpper) text.toList word.toList

/-- How a severity may be written. -/
inductive Written : Value → Severity → Prop where
  | level (s : Severity) : Written (.int s.level) s
  | name {text : String} {s : Severity} (hText : AnyCase text s.name) : Written (.string text) s
  | warning {text : String} (hText : AnyCase text "warning") : Written (.string text) .warn

theorem anyCase_iff {text word : String} (hWord : ∀ d ∈ word.toList, d.isLower = true) :
    AnyCase text word ↔ lower text = word := by
  have hLetters (cs ds : List Char) (hds : ∀ d ∈ ds, d.isLower = true) :
      List.Forall₂ (fun c d => c = d ∨ c = d.toUpper) cs ds ↔ cs.map Char.toLower = ds := by
    induction cs generalizing ds with
    | nil => simp [eq_comm]
    | cons c cs ih =>
      cases ds with
      | nil => simp
      | cons d ds =>
        rw [List.forall_mem_cons] at hds
        rw [List.forall₂_cons, ih ds hds.2, List.map_cons, List.cons.injEq, toLower_eq_iff hds.1]
  rw [AnyCase, hLetters _ _ hWord, lower, ← String.toList_inj, String.toList_ofList]

theorem name_lower (s : Severity) : ∀ d ∈ s.name.toList, d.isLower = true := by
  rw [← List.all_eq_true]
  cases s <;> decide

theorem warning_lower : ∀ d ∈ "warning".toList, d.isLower = true :=
  List.all_eq_true.mp (by decide)

theorem ofLevel?_eq_some_iff {n : Nat} {s : Severity} : ofLevel? n = some s ↔ n = s.level := by
  constructor
  · intro h
    unfold ofLevel? at h
    split at h <;> cases h <;> rfl
  · rintro rfl
    cases s <;> rfl

theorem ofName?_eq_some_iff {lowered : String} {s : Severity} :
    ofName? lowered = some s ↔ lowered = s.name ∨ lowered = "warning" ∧ s = .warn := by
  constructor
  · intro h
    unfold ofName? at h
    split at h <;> cases h <;> simp [name]
  · rintro (rfl | ⟨rfl, rfl⟩)
    · cases s <;> rfl
    · rfl

theorem decode_int_iff {n : Nat} {s : Severity} :
    decode (.int n) = .ok s ↔ ofLevel? n = some s := by
  rw [show (n : Int) = .ofNat n from rfl, decode]
  cases ofLevel? n <;> simp

theorem decode_string_iff {text : String} {s : Severity} :
    decode (.string text) = .ok s ↔ ofName? (lower text) = some s := by
  rw [decode]
  cases ofName? (lower text) <;> simp

theorem decode_eq_ok_iff {v : Value} {s : Severity} : decode v = .ok s ↔ Written v s := by
  constructor
  · intro h
    cases v with
    | int n =>
      cases n with
      | ofNat n =>
        cases ofLevel?_eq_some_iff.mp (decode_int_iff.mp h)
        exact .level s
      | negSucc n => cases h
    | string text =>
      rcases ofName?_eq_some_iff.mp (decode_string_iff.mp h) with hName | ⟨hWarning, rfl⟩
      · exact .name ((anyCase_iff s.name_lower).mpr hName)
      · exact .warning ((anyCase_iff warning_lower).mpr hWarning)
    | _ => cases h
  · intro h
    cases h with
    | level => exact decode_int_iff.mpr (ofLevel?_eq_some_iff.mpr rfl)
    | name hText =>
      rw [anyCase_iff s.name_lower] at hText
      exact decode_string_iff.mpr (ofName?_eq_some_iff.mpr (.inl hText))
    | warning hText =>
      rw [anyCase_iff warning_lower] at hText
      exact decode_string_iff.mpr (ofName?_eq_some_iff.mpr (.inr ⟨hText, rfl⟩))

end Severity

namespace Setting

/-- How a setting may be written: as a severity, or as a list of a severity and the options. -/
inductive Written : Value → Setting → Prop where
  | bare {v : Value} {s : Severity} (hSeverity : Severity.Written v s) : Written v ⟨s, []⟩
  | list {head : Value} {s : Severity} (options : List Value)
      (hSeverity : Severity.Written head s) : Written (.array (head :: options)) ⟨s, options⟩

theorem decode_list_iff {head : Value} {options : List Value} {s : Setting} :
    decode (.array (head :: options)) = .ok s ↔
      Severity.decode head = .ok s.severity ∧ s.options = options := by
  rw [decode]
  cases Severity.decode head with
  | error fault => simp [Except.map]
  | ok severity =>
    obtain ⟨own, rest⟩ := s
    simp [Except.map, eq_comm]

theorem decode_bare_iff {v : Value} {s : Setting} (hList : ∀ items, v ≠ .array items) :
    decode v = .ok s ↔ Severity.decode v = .ok s.severity ∧ s.options = [] := by
  rw [decode.eq_3 v (hList []) fun head options => hList (head :: options)]
  cases Severity.decode v with
  | error fault => simp
  | ok severity =>
    obtain ⟨own, rest⟩ := s
    simp [ofSeverity, eq_comm]

theorem decode_eq_ok_iff {v : Value} {s : Setting} : decode v = .ok s ↔ Written v s := by
  constructor
  · intro h
    obtain ⟨severity, options⟩ := s
    by_cases hList : ∃ items, v = .array items
    · obtain ⟨items, rfl⟩ := hList
      cases items with
      | nil => cases h
      | cons head tail =>
        obtain ⟨hHead, rfl⟩ := decode_list_iff.mp h
        exact .list _ (Severity.decode_eq_ok_iff.mp hHead)
    · obtain ⟨hBare, rfl⟩ := (decode_bare_iff fun items hv => hList ⟨items, hv⟩).mp h
      exact .bare (Severity.decode_eq_ok_iff.mp hBare)
  · intro h
    cases h with
    | bare hSeverity =>
      refine (decode_bare_iff ?_).mpr ⟨Severity.decode_eq_ok_iff.mpr hSeverity, rfl⟩
      rintro items rfl
      cases hSeverity
    | list options hSeverity =>
      exact decode_list_iff.mpr ⟨Severity.decode_eq_ok_iff.mpr hSeverity, rfl⟩

end Setting

/-! ## Fields of records -/

namespace Record

theorem names_present (fields : List (String × Option Value)) :
    ((present fields).map (·.1)).Sublist (fields.map (·.1)) := by
  induction fields with
  | nil => exact .slnil
  | cons field fields ih =>
    obtain ⟨name, v⟩ := field
    cases v with
    | none => exact ih.cons name
    | some v => exact ih.cons_cons name

theorem lookup_present (fields : List (String × Option Value))
    (hDistinct : (fields.map (·.1)).Nodup) (name : String) :
    (present fields).lookup name = (fields.lookup name).join := by
  induction fields with
  | nil => rfl
  | cons field fields ih =>
    obtain ⟨own, v⟩ := field
    rw [List.map_cons, List.nodup_cons] at hDistinct
    rw [NameMap.lookup_cons_eq_ite]
    cases v with
    | none =>
      change (present fields).lookup name = _
      split
      · -- no other field has the name of the one that is left out
        rename_i hOwn
        refine List.lookup_eq_none_iff.mpr ?_
        rintro ⟨other, w⟩ hMem
        have hName := (names_present fields).subset (List.mem_map_of_mem hMem)
        rw [hOwn, bne_iff_ne]
        rintro rfl
        exact hDistinct.1 hName
      · exact ih hDistinct.2
    | some v =>
      change ((own, v) :: present fields).lookup name = _
      rw [NameMap.lookup_cons_eq_ite]
      split
      · rfl
      · exact ih hDistinct.2

/-- The fields of an object, if no name stands there twice. -/
theorem fields_object (names : List String) (fs : List (String × Value))
    (hDistinct : (fs.map (·.1)).Nodup) : fields names (.object fs) = .ok fs := by
  have hOnce : names.find? (fun n => 1 < fs.countP (·.1 = n)) = none := by
    rw [List.find?_eq_none]
    intro name _
    have hCount := List.nodup_iff_count.mp hDistinct name
    rw [List.count_eq_countP, List.countP_map] at hCount
    rw [decide_eq_true_eq, Nat.not_lt]
    exact hCount
  rw [fields, hOnce]

variable {α : Type} {fs : List (String × Value)} {name : String}

theorem field_eq_ok_iff {default a : α} {read? : Value → Option α} :
    field fs name default read? = .ok a ↔
      (fs.lookup name = none ∧ default = a) ∨ ∃ v, fs.lookup name = some v ∧ read? v = some a := by
  rw [field]
  cases fs.lookup name with
  | none => simp
  | some v =>
    cases hRead : read? v with
    | none => simp [hRead]
    | some b => simp [hRead]

theorem field_optional (read? : Value → Option α) (write : α → Value) {part : Option α}
    (hField : fs.lookup name = part.map write)
    (hRead : ∀ a, part = some a → write a ≠ .null ∧ read? (write a) = some a) :
    field fs name none (optional? read?) = .ok part := by
  rw [field_eq_ok_iff]
  cases part with
  | none => exact .inl ⟨hField, rfl⟩
  | some a =>
    obtain ⟨hNull, hOwn⟩ := hRead a rfl
    refine .inr ⟨write a, hField, ?_⟩
    rw [optional?.eq_2 _ _ hNull, hOwn]
    rfl

theorem field_unless {read? : Value → Option α} {empty part : α} {v : Value} {absent : Prop}
    [Decidable absent] (hField : fs.lookup name = if absent then none else some v)
    (hAbsent : absent → part = empty) (hRead : read? v = some part) :
    field fs name empty read? = .ok part := by
  rw [field_eq_ok_iff, hField]
  by_cases h : absent
  · exact .inl ⟨if_pos h, (hAbsent h).symm⟩
  · exact .inr ⟨v, if_neg h, hRead⟩

theorem strings?_encodeStrings (xs : List String) : strings? (encodeStrings xs) = some xs := by
  rw [encodeStrings, strings?]
  induction xs with
  | nil => rfl
  | cons x xs ih => rw [List.map_cons, List.mapM_cons, ih]; rfl

theorem flags?_entries (env : NameMap Bool) :
    flags? (.object (env.entries.map fun (k, b) => (k, .bool b))) = some env := by
  have hEntries (l : List (String × Bool)) :
      (l.map fun p => (p.1, Value.bool p.2)).mapM (fun p => p.2.bool?.map (p.1, ·)) = some l := by
    induction l with
    | nil => rfl
    | cons x l ih => rw [List.map_cons, List.mapM_cons, ih]; rfl
  refine Eq.trans ?_ (congrArg some env.ofList_entries)
  exact congrArg (Option.map NameMap.ofList) (hEntries env.entries)

end Record

/-! ## Configurations -/

namespace FileSelection

/-- What the fields of a written selection hold. -/
structure Encoded (f : FileSelection) (fs : List (String × Value)) : Prop where
  names : (fs.map (·.1)).Sublist fieldNames
  included : fs.lookup "include" = f.included.map Record.encodeStrings
  excluded : fs.lookup "exclude" = f.excluded.map Record.encodeStrings
  extensions : fs.lookup "extensions" = f.extensions.map Record.encodeStrings

theorem exists_encoded (f : FileSelection) : ∃ fs, f.encode = .object fs ∧ f.Encoded fs := by
  refine ⟨_, rfl, Record.names_present _, ?_, ?_, ?_⟩
  all_goals
    rw [Record.lookup_present _ (by simp)]
    simp [NameMap.lookup_cons_eq_ite]

theorem decode_eq_ok_iff {v : Value} {f : FileSelection} :
    decode v = .ok f ↔ ∃ fs, Record.fields fieldNames v = .ok fs ∧
      Record.field fs "include" none (Record.optional? Record.strings?) = .ok f.included ∧
      Record.field fs "exclude" none (Record.optional? Record.strings?) = .ok f.excluded ∧
      Record.field fs "extensions" none (Record.optional? Record.strings?) = .ok f.extensions := by
  simp only [decode, bind_eq_ok_iff]
  constructor
  · rintro ⟨fs, hFields, _, hIncluded, _, hExcluded, _, hExtensions, hSelf⟩
    cases hSelf
    exact ⟨fs, hFields, hIncluded, hExcluded, hExtensions⟩
  · rintro ⟨fs, hFields, hIncluded, hExcluded, hExtensions⟩
    exact ⟨fs, hFields, _, hIncluded, _, hExcluded, _, hExtensions, rfl⟩

theorem decode_of_encoded {f : FileSelection} {fs : List (String × Value)} (h : f.Encoded fs) :
    decode (.object fs) = .ok f := by
  have hDistinct : (fs.map (·.1)).Nodup := h.names.nodup (by decide)
  have hList (part : Option (List String)) (xs : List String) (_ : part = some xs) :
      Record.encodeStrings xs ≠ .null ∧
        Record.strings? (Record.encodeStrings xs) = some xs :=
    ⟨Value.noConfusion, Record.strings?_encodeStrings xs⟩
  exact decode_eq_ok_iff.mpr ⟨fs, Record.fields_object _ _ hDistinct,
    Record.field_optional _ _ h.included (hList _), Record.field_optional _ _ h.excluded (hList _),
    Record.field_optional _ _ h.extensions (hList _)⟩

theorem decode_encode (f : FileSelection) : decode f.encode = .ok f := by
  obtain ⟨fs, hSelf, hEncoded⟩ := f.exists_encoded
  rw [hSelf, decode_of_encoded hEncoded]

end FileSelection

namespace Config

/-- What the fields of a written configuration hold. Empty plugins, an empty environment and
what is absent have no field. -/
structure Encoded (c : Config) (fs : List (String × Value)) : Prop where
  names : (fs.map (·.1)).Sublist fieldNames
  parent : fs.lookup "extends" = c.parent.map .string
  plugins : fs.lookup "plugins" =
    if c.plugins = [] then none else some (.array (c.plugins.map .string))
  env : fs.lookup "env" =
    if c.env = .empty then none
    else some (.object (c.env.entries.map fun (k, b) => (k, .bool b)))
  dialect : fs.lookup "parserOptions" = c.dialect
  files : fs.lookup "files" = c.files.map FileSelection.encode
  rules : fs.lookup "rules" = some (.object (c.rules.entries.map fun (k, s) => (k, s.encode)))

theorem encoded_encodeFields (c : Config) : c.Encoded c.encodeFields := by
  refine ⟨Record.names_present _, ?_, ?_, ?_, ?_, ?_, ?_⟩
  all_goals
    rw [encodeFields, Record.lookup_present _ (by simp)]
    simp [NameMap.lookup_cons_eq_ite, NameMap.isEmpty_iff, encodeEnv, encodeRules, Record.encodeStrings]

theorem decodeSettings_encode (entries : List (String × Setting)) :
    decodeSettings (entries.map fun (k, s) => (k, s.encode)) = .ok entries := by
  induction entries with
  | nil => rfl
  | cons entry entries ih =>
    obtain ⟨k, s⟩ := entry
    rw [List.map_cons, decodeSettings, Setting.decode_encode, ih]
    rfl

theorem decodeRules_encode (rules : NameMap Setting) :
    decodeRules (some (.object (rules.entries.map fun (k, s) => (k, s.encode)))) = .ok rules := by
  rw [decodeRules, decodeSettings_encode, Except.map, NameMap.ofList_entries]

theorem decodeFiles_encode (files : Option FileSelection) :
    decodeFiles (files.map FileSelection.encode) = .ok files := by
  cases files with
  | none => rfl
  | some f =>
    change (FileSelection.decode f.encode).map some = _
    rw [FileSelection.decode_encode]
    rfl

theorem decode_eq_ok_iff {v : Value} {c : Config} :
    decode v = .ok c ↔ ∃ fs, Record.fields fieldNames v = .ok fs ∧
      Record.field fs "extends" none (Record.optional? Value.string?) = .ok c.parent ∧
      Record.field fs "plugins" [] Record.strings? = .ok c.plugins ∧
      Record.field fs "env" .empty Record.flags? = .ok c.env ∧
      Record.field fs "parserOptions" none (Record.optional? some) = .ok c.dialect ∧
      decodeFiles (fs.lookup "files") = .ok c.files ∧
      decodeRules (fs.lookup "rules") = .ok c.rules := by
  simp only [decode, bind_eq_ok_iff]
  constructor
  · rintro ⟨fs, hFields, _, hParent, _, hPlugins, _, hEnv, _, hDialect, _, hFiles, _, hRules, hSelf⟩
    cases hSelf
    exact ⟨fs, hFields, hParent, hPlugins, hEnv, hDialect, hFiles, hRules⟩
  · rintro ⟨fs, hFields, hParent, hPlugins, hEnv, hDialect, hFiles, hRules⟩
    exact ⟨fs, hFields, _, hParent, _, hPlugins, _, hEnv, _, hDialect, _, hFiles, _, hRules, rfl⟩

theorem decode_of_encoded {c : Config} {fs : List (String × Value)} (h : c.Encoded fs)
    (hDialect : c.dialect ≠ some .null) : decode (.object fs) = .ok c := by
  have hDistinct : (fs.map (·.1)).Nodup := h.names.nodup (by decide)
  have hParent := Record.field_optional Value.string? _ h.parent fun name _ =>
    ⟨Value.noConfusion, rfl⟩
  have hPlugins := Record.field_unless h.plugins id (Record.strings?_encodeStrings c.plugins)
  have hEnv := Record.field_unless h.env id (Record.flags?_entries c.env)
  have hOptions : Record.field fs "parserOptions" none (Record.optional? some) = .ok c.dialect := by
    apply Record.field_optional some id
    · rw [h.dialect, Option.map_id_fun, id]
    · intro v hv
      exact ⟨fun hNull => hDialect (hv.trans (congrArg some hNull)), rfl⟩
  refine decode_eq_ok_iff.mpr
    ⟨fs, Record.fields_object _ _ hDistinct, hParent, hPlugins, hEnv, hOptions, ?_, ?_⟩
  · rw [h.files, decodeFiles_encode]
  · rw [h.rules, decodeRules_encode]

theorem decode_encode (c : Config) (hDialect : c.dialect ≠ some .null) :
    decode c.encode = .ok c :=
  decode_of_encoded c.encoded_encodeFields hDialect

theorem dialect_of_decode {v : Value} {c : Config} (h : decode v = .ok c) :
    c.dialect ≠ some .null := by
  obtain ⟨fs, -, -, -, -, hDialect, -⟩ := decode_eq_ok_iff.mp h
  rcases Record.field_eq_ok_iff.mp hDialect with ⟨-, hNone⟩ | ⟨w, -, hRead⟩
  · rw [← hNone]
    exact nofun
  · -- null is read as an absent part, and no other value is read as null
    intro hNull
    rw [hNull] at hRead
    cases w <;> cases hRead

end Config

/-- Writing a configuration and reading it back changes nothing unless its parser options are
null, which reading never yields. Fields are left out exactly where there is nothing to write, and
settings are read exactly if they are written as a severity or as a list that starts with one. -/
theorem codec_round_trip :
    (∀ c : Config, c.dialect ≠ some .null → Config.decode c.encode = .ok c) ∧
      (∀ c : Config, ∃ fs, c.encode = .object fs ∧ c.Encoded fs) ∧
      (∀ f : FileSelection, ∃ fs, f.encode = .object fs ∧ f.Encoded fs) ∧
      (∀ (v : Value) (c : Config), Config.decode v = .ok c →
        c.dialect ≠ some .null ∧ Config.decode c.encode = .ok c) ∧
      ∀ (v : Value) (s : Setting), Setting.decode v = .ok s ↔ Setting.Written v s := by
  refine ⟨Config.decode_encode, ?_, FileSelection.exists_encoded, ?_, fun _ _ => ?_⟩
  · exact fun c => ⟨_, rfl, c.encoded_encodeFields⟩
  · intro v c h
    have hDialect := Config.dialect_of_decode h
    exact ⟨hDialect, c.decode_encode hDialect⟩
  · exact Setting.decode_eq_ok_iff

theorem codec_round_trip_quotes :
    let options : List Value := [.string "error", .int 2]
    let c : Config := { rules := NameMap.empty.insert "quotes" ⟨.warn, options⟩ }
    let setting : Value := .array (.string "Warning" :: options)
    let v : Value := .object [("parserOptions", .null), ("rules", .object [("quotes", setting)])]
    Config.decode v = .ok c ∧ c.dialect ≠ some .null ∧ Config.decode c.encode = .ok c ∧
      Setting.decode setting = .ok ⟨.warn, options⟩ := by
  intro options c setting v
  obtain ⟨hWritten, -, -, hRead, hSetting⟩ := codec_round_trip
  have hOwn : Config.decode v = .ok c := by rfl
  have hWarning : Severity.AnyCase "Warning" "warning" :=
    (Severity.anyCase_iff Severity.warning_lower).mpr (by decide)
  exact ⟨hOwn, (hRead v c hOwn).1, hWritten c (by decide),
    (hSetting _ _).mpr (.list options (.warning hWarning))⟩

end RuleScout
