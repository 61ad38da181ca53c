import RuleScout.Command.Effect
import RuleScout.Discovery.Candidate

/-!
# Listings of rules

The rules of a catalog in short or at length, and everything about one rule.
-/

set_option autoImplicit false

namespace RuleScout

namespace RuleMetadata

def marked (m : RuleMetadata) : String := m.id ++ if m.recommended then " (recommended)" else ""

def candidates (m : RuleMetadata) : List Candidate := (RuleEntry.ofMetadata m).candidates

def numbered (line : Nat → OptionSchema → String) (m : RuleMetadata) : List String :=
  m.schema.mapIdx fun i s => line (i + 1) s

def shortLines (m : RuleMetadata) : List String := [s!"  {m.marked} - {m.description}"]

def detailedLines (m : RuleMetadata) : List String :=
  ["", m.marked, "  Description: " ++ m.description, "  Category: " ++ m.category.slug] ++
    m.numbered (fun i s => s!"  Option {i}: {s.describe}") ++
    [s!"  Candidates: {m.candidates.length}"]

def explanation (m : RuleMetadata) : List String :=
  let options :=
    if m.schema.isEmpty then []
    else ["", "Options:"] ++ m.numbered fun i s => s!"  {i}. {s.describe}"
  ["Rule: " ++ m.id, "".pushn '=' (m.id.utf8ByteSize + 6), "", "Name: " ++ m.name,
      "Category: " ++ m.category.slug,
      "Recommended: " ++ (if m.recommended then "yes" else "no"),
      "Description: " ++ m.description] ++
    options ++
    ["", s!"Candidate configurations ({m.candidates.length}):"] ++
    m.candidates.map fun c => s!"  {c.tier.describe}  {Json.compact (.array c.options)}"

end RuleMetadata

namespace Catalog

def inCategory (c : Catalog) (category : Option String) : List RuleMetadata :=
  (c.rules.map (·.metadata)).filter fun m => (category.map .ofSlug).all (m.category = ·)

def listing (c : Catalog) (detailed : Bool) (category : Option String) : List String :=
  let shown := c.inCategory category
  ["Available Rules:", "================"] ++
    (shown.flatMap fun m => if detailed then m.detailedLines else m.shortLines) ++
    if shown.isEmpty then ["", "No rules found matching the specified filters."]
    else ["", s!"Total: {shown.length} rules"]

def explanation (c : Catalog) (id : String) : List String :=
  match c.get? id with
  | some r => r.metadata.explanation
  | none =>
    ["Rule '" ++ id ++ "' not found.", "", "Use 'lintseed rules' to list all available rules."]

end Catalog

end RuleScout
