import RuleScout.Config.Basic

/-!
# Configurations as values

`encode` leaves out what is absent or empty, and `decode` reads the fields in any order.
Fields it does not know are ignored, a known field may stand only once. A configuration may
also be given as the list of its fields, in their order.
-/

set_option autoImplicit false

namespace RuleScout

inductive ConfigFault where
  | notARecord
  | wrongField (name : String)
  | repeatedField (name : String)
  | surplusField
  | badSetting (rule : String) (fault : SettingFault)
  deriving DecidableEq, Repr

namespace Record

/-- The fields of a record: an object, or a list of the leading fields in order. -/
def fields (names : List String) : Value → Except ConfigFault (List (String × Value))
  | .object fields =>
    match names.find? fun n => 1 < fields.countP (·.1 = n) with
    | some n => .error (.repeatedField n)
    | none => .ok fields
  | .array items =>
    if names.length < items.length then .error .surplusField else .ok (names.zip items)
  | _ => .error .notARecord

def field {α : Type} (fields : List (String × Value)) (name : String) (default : α)
    (read? : Value → Option α) : Except ConfigFault α :=
  match fields.lookup name with
  | none => .ok default
  | some v =>
    match read? v with
    | some a => .ok a
    | none => .error (.wrongField name)

def strings? : Value → Option (List String)
  | .array items => items.mapM Value.string?
  | _ => none

/-- An optional part; it may be given as null. -/
def optional? {α : Type} (read? : Value → Option α) : Value → Option (Option α)
  | .null => some none
  | v => (read? v).map some

def flags? : Value → Option (NameMap Bool)
  | .object fields =>
    (fields.mapM fun ((k, v) : String × Value) => v.bool?.map (k, ·)).map NameMap.ofList
  | _ => none

def present (fields : List (String × Option Value)) : List (String × Value) :=
  fields.filterMap fun (k, v) => v.map (k, ·)

def encodeStrings (xs : List String) : Value := .array (xs.map .string)

end Record

namespace FileSelection

def fieldNames : List String := ["include", "exclude", "extensions"]

def encode (f : FileSelection) : Value :=
  .object (Record.present
    [("include", f.included.map Record.encodeStrings),
      ("exclude", f.excluded.map Record.encodeStrings),
      ("extensions", f.extensions.map Record.encodeStrings)])

def decode (v : Value) : Except ConfigFault FileSelection := do
  let fields ← Record.fields fieldNames v
  let list := Record.optional? Record.strings?
  return {
    included := ← Record.field fields "include" none list
    excluded := ← Record.field fields "exclude" none list
    extensions := ← Record.field fields "extensions" none list }

end FileSelection

namespace Config

def fieldNames : List String := ["extends", "plugins", "env", "parserOptions", "files", "rules"]

def encodeEnv (env : NameMap Bool) : Value :=
  .object (env.entries.map fun (k, b) => (k, .bool b))

def encodeRules (rules : NameMap Setting) : Value :=
  .object (rules.entries.map fun (k, s) => (k, s.encode))

def encodeFields (c : Config) : List (String × Value) :=
  Record.present
    [("extends", c.parent.map .string),
      ("plugins", if c.plugins.isEmpty then none else some (Record.encodeStrings c.plugins)),
      ("env", if c.env.isEmpty then none else some (encodeEnv c.env)),
      ("parserOptions", c.dialect),
      ("files", c.files.map FileSelection.encode),
      ("rules", some (encodeRules c.rules))]

def encode (c : Config) : Value := .object c.encodeFields

def decodeSettings : List (String × Value) → Except ConfigFault (List (String × Setting))
  | [] => .ok []
  | (k, v) :: rest =>
    match Setting.decode v with
    | .error fault => .error (.badSetting k fault)
    | .ok s => (decodeSettings rest).map ((k, s) :: ·)

def decodeRules : Option Value → Except ConfigFault (NameMap Setting)
  | none => .ok .empty
  | some (.object fields) => (decodeSettings fields).map NameMap.ofList
  | some _ => .error (.wrongField "rules")

def decodeFiles : Option Value → Except ConfigFault (Option FileSelection)
  | none | some .null => .ok none
  | some v => (FileSelection.decode v).map some

def decode (v : Value) : Except ConfigFault Config := do
  let fields ← Record.fields fieldNames v
  return {
    parent := ← Record.field fields "extends" none (Record.optional? Value.string?)
    plugins := ← Record.field fields "plugins" [] Record.strings?
    env := ← Record.field fields "env" .empty Record.flags?
    dialect := ← Record.field fields "parserOptions" none (Record.optional? some)
    files := ← decodeFiles (fields.lookup "files")
    rules := ← decodeRules (fields.lookup "rules") }

end Config

end RuleScout
