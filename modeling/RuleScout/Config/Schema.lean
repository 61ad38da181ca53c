import RuleScout.Config.Basic

/-!
# The schema of configuration files

A JSON Schema document that describes the shape of a configuration.
-/

set_option autoImplicit false

namespace RuleScout.Schema

def typed (name : String) : String × Value := ("type", .string name)

def optionalType (name : String) : String × Value :=
  ("type", .array [.string name, .string "null"])

def described (text : String) : String × Value := ("description", .string text)

def strings : String × Value := ("items", .object [typed "string"])

def reference (name : String) : Value := .object [("$ref", .string ("#/$defs/" ++ name))]

def fileSelection : Value :=
  let list (text : String) : Value := .object [described text, optionalType "array", strings]
  .object
    [described "Files configuration", typed "object",
      ("properties", .object
        [("include", list "Glob patterns for files to include"),
          ("exclude", list "Glob patterns for files to exclude"),
          ("extensions", list "Extensions collected when walking directories")])]

def setting : Value :=
  .object
    [described "Severity, or an array of severity followed by rule options",
      ("oneOf", .array
        [reference "Severity", .object [typed "array", ("minItems", .int 1)]])]

def severity : Value :=
  .object
    [described "Rule severity: off/warn/error or 0/1/2",
      ("oneOf", .array
        [.object [typed "string",
            ("enum", .array [.string "off", .string "warn", .string "error"])],
          .object [typed "integer", ("enum", .array [.int 0, .int 1, .int 2])]])]

def configFields : Value :=
  .object
    [("extends", .object
        [described "Name of a shared configuration to extend", optionalType "string"]),
      ("plugins", .object [described "Plugin names", typed "array", strings]),
      ("env", .object
        [described "Environments whose globals are predefined", typed "object",
          ("additionalProperties", .object [typed "boolean"])]),
      ("parserOptions", .object [described "Parser options passed through untouched"]),
      ("files", .object
        [described "File discovery configuration",
          ("anyOf", .array [reference "FilesConfiguration", .object [typed "null"]])]),
      ("rules", .object
        [described "Rule severity and option configuration", typed "object",
          ("additionalProperties", reference "RuleSetting"), ("default", .object [])])]

def config : Value :=
  .object
    [("$schema", .string "https://json-schema.org/draft/2020-12/schema"),
      ("title", .string "LintConfig"),
      described ("Linter configuration\n\n\x60rules\x60 is kept sorted by rule id so that two " ++
        "runs over the same\ninputs serialize byte-for-byte identically."),
      typed "object",
      ("properties", configFields),
      ("$defs", .object
        [("FilesConfiguration", fileSelection), ("RuleSetting", setting),
          ("Severity", severity)])]

end RuleScout.Schema
