import RuleScout.Json.Printer

/-!
# What a rule says about itself

A rule has an id, a title, a description, a category and a schema: for each position of its
options, what may stand there. Positions whose values can be listed are the ones that
configurations are tried for.
-/

set_option autoImplicit false

namespace RuleScout

inductive RuleCategory where
  | correctness
  | suspicious
  | style
  | layout
  | custom (name : String)
  deriving DecidableEq, Repr

namespace RuleCategory

def slug : RuleCategory → String
  | .correctness => "correctness"
  | .suspicious => "suspicious"
  | .style => "style"
  | .layout => "layout"
  | .custom name => name

/-- The category of a slug; some have a second name. -/
def ofSlug (slug : String) : RuleCategory :=
  match slug with
  | "correctness" | "problem" => .correctness
  | "suspicious" => .suspicious
  | "style" | "suggestion" => .style
  | "layout" | "formatting" => .layout
  | other => .custom other

end RuleCategory

inductive PropertyKind where
  | enumeration (values : List Value)
  | boolean
  | anything
  deriving DecidableEq, Repr

structure PropertySchema where
  name : String
  kind : PropertyKind
  deriving DecidableEq, Repr

namespace PropertySchema

def candidateValues (p : PropertySchema) : Option (List Value) :=
  match p.kind with
  | .enumeration [] => none
  | .enumeration values => some values
  | .boolean => some [.bool true, .bool false]
  | .anything => none

def describe (p : PropertySchema) : String :=
  match p.kind with
  | .enumeration values => p.name ++ ": " ++ " | ".intercalate (values.map Json.compact)
  | .boolean => p.name ++ ": boolean"
  | .anything => p.name ++ ": any"

def encodeKind : PropertyKind → Value
  | .enumeration values => .object [("type", .string "enum"), ("values", .array values)]
  | .boolean => .object [("type", .string "boolean")]
  | .anything => .object [("type", .string "opaque")]

def encode (p : PropertySchema) : Value :=
  .object [("name", .string p.name), ("kind", encodeKind p.kind)]

end PropertySchema

inductive OptionSchema where
  | enumeration (values : List Value)
  | object (properties : List PropertySchema)
  | anything (description : String)
  deriving DecidableEq, Repr

namespace OptionSchema

def describe : OptionSchema → String
  | .enumeration values => "one of " ++ " | ".intercalate (values.map Json.compact)
  | .object properties =>
    "\x7b " ++ ", ".intercalate (properties.map PropertySchema.describe) ++ " \x7d"
  | .anything description => description

def encode : OptionSchema → Value
  | .enumeration values => .object [("type", .string "enum"), ("values", .array values)]
  | .object properties =>
    .object [("type", .string "object"), ("properties", .array (properties.map (·.encode)))]
  | .anything description =>
    .object [("type", .string "opaque"), ("description", .string description)]

end OptionSchema

structure RuleMetadata where
  id : String
  name : String
  description : String
  category : RuleCategory
  recommended : Bool := false
  schema : List OptionSchema := []
  deriving DecidableEq, Repr

def RuleMetadata.encode (m : RuleMetadata) : Value :=
  .object [("id", .string m.id), ("name", .string m.name),
    ("description", .string m.description), ("category", .string m.category.slug),
    ("recommended", .bool m.recommended), ("schema", .array (m.schema.map (·.encode)))]

end RuleScout
