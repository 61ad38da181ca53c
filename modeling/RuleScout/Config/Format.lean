import RuleScout.Config.Codec
import RuleScout.Failure
import RuleScout.Files.Path
import RuleScout.Json.Reader
import RuleScout.Json.Printer
import RuleScout.Yaml.Reader
import RuleScout.Yaml.Shape
import RuleScout.Yaml.Printer
import RuleScout.Toml.Reader
import RuleScout.Toml.Printer

/-!
# Formats of configuration files

A configuration is written as JSON, YAML or TOML. Each format has a default file name, and a
file name tells its format by its extension.
-/

set_option autoImplicit false

namespace RuleScout

inductive Format where
  | json
  | yaml
  | toml
  deriving DecidableEq, Repr

namespace Format

def label : Format → String
  | .json => "JSON"
  | .yaml => "YAML"
  | .toml => "TOML"

def fileName : Format → String
  | .json => ".lintseedrc.json"
  | .yaml => ".lintseedrc.yaml"
  | .toml => ".lintseedrc.toml"

def ofExtension? (extension : String) : Option Format :=
  [("json", json), ("yaml", yaml), ("yml", yaml), ("toml", toml)].lookup extension

def ofPath? (path : String) : Option Format := (Path.extension? path).bind ofExtension?

end Format

namespace Config

def shape : Yaml.Shape :=
  let texts := Yaml.Shape.optional (.list .text)
  .record
    [("extends", .optional .text), ("plugins", .list .text), ("env", .table .flag),
      ("parserOptions", .optional .any),
      ("files", .optional (.record
        [("include", texts), ("exclude", texts), ("extensions", texts)])),
      ("rules", .table .strict)]

end Config

namespace Format

def value? : Format → String → Option Value
  | .json, text => Json.read text
  | .yaml, text => (Yaml.read text).bind (Yaml.Node.value? Yaml.deepest Config.shape)
  | .toml, text => (Toml.read text).map .object

def parse? (f : Format) (text : String) : Option Config :=
  (f.value? text).bind fun v => (Config.decode v).toOption

def parse (f : Format) (text : String) : Except Failure Config :=
  match f.parse? text with
  | some c => .ok c
  | none => .error (.invalidConfig f.label)

/-- The text of a configuration. Only TOML cannot write every configuration: it has no
null. -/
def render (f : Format) (c : Config) : Except Failure String :=
  match f with
  | .json => .ok (Json.pretty c.encode ++ "\n")
  | .yaml => .ok (Yaml.print c.encodeFields)
  | .toml =>
    match Toml.print? c.encodeFields with
    | some text => .ok text
    | none => .error (.unwritableConfig f.label)

/-- Whether a configuration is read back from its own text, up to the order of the fields of
its option values. -/
def roundTrips (f : Format) (c : Config) : Bool :=
  match f.render c with
  | .error _ => false
  | .ok text => (f.parse? text).any fun d => d.encode.sorted = c.encode.sorted

end Format

class TextFormats where
  parse? : Format → String → Option Config
  render : Format → Config → Except Failure String

instance : TextFormats where
  parse? := Format.parse?
  render := Format.render

end RuleScout
