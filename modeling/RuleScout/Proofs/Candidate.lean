import RuleScout.Discovery.Candidate
import RuleScout.Proofs.Linter

/-!
# The candidates of a rule

The registry of a catalog holds the candidates of all rules one after the other. Every candidate
carries the id of its rule, and so the candidates of one rule can be told from the others.
-/

set_option autoImplicit false

namespace RuleScout

namespace Rule

/-- The candidates of a rule, in the order of trial. -/
def candidates (r : Rule) : List Candidate := (RuleEntry.ofMetadata r.metadata).candidates

/-- Whether a rule reports nothing on any of the units under the options of a candidate. -/
def accepts (r : Rule) (us : List SourceUnit) (c : Candidate) : Bool :=
  us.all fun u => (r.check u ⟨c.options⟩).isEmpty

theorem rule_of_mem_candidates {r : Rule} {c : Candidate} (hc : c ∈ r.candidates) :
    c.rule = r.id := by
  obtain ⟨options, -, rfl⟩ := List.mem_map.mp hc
  rfl

theorem bare_mem_candidates (r : Rule) : ⟨r.id, []⟩ ∈ r.candidates :=
  List.mem_map.mpr ⟨[], List.mem_cons_self, rfl⟩

theorem accepts_perm (r : Rule) {us vs : List SourceUnit} (h : us.Perm vs) (c : Candidate) :
    r.accepts us c = r.accepts vs c := by
  rw [accepts, accepts, Bool.eq_iff_iff, List.all_eq_true, List.all_eq_true]
  exact ⟨fun hAll u hu => hAll u (h.mem_iff.mpr hu), fun hAll u hu => hAll u (h.mem_iff.mp hu)⟩

theorem accepts_append (r : Rule) (us vs : List SourceUnit) (c : Candidate) :
    r.accepts (us ++ vs) c = (r.accepts us c && r.accepts vs c) := by
  rw [accepts, List.all_append]
  rfl

end Rule

/-- Whether the rule of a candidate, if it exists, accepts all units. -/
def Catalog.accepts (catalog : Catalog) (us : List SourceUnit) (c : Candidate) : Bool :=
  (catalog.get? c.rule).all (·.accepts us c)

theorem Catalog.accepts_eq (catalog : Catalog) (us : List SourceUnit) {r : Rule}
    (hr : r ∈ catalog.rules) {c : Candidate} (hc : c ∈ r.candidates) :
    catalog.accepts us c = r.accepts us c := by
  rw [accepts, Rule.rule_of_mem_candidates hc, catalog.get?_of_mem r hr]
  rfl

theorem Catalog.accepts_perm (catalog : Catalog) {us vs : List SourceUnit} (h : us.Perm vs)
    (c : Candidate) : catalog.accepts us c = catalog.accepts vs c := by
  simp only [accepts, Rule.accepts_perm _ h]

namespace Registry

theorem ids_ofCatalog (catalog : Catalog) : (ofCatalog catalog).ids = catalog.ids := by
  rw [ids, ofCatalog, List.map_map]
  rfl

theorem mem_entries_ofCatalog {catalog : Catalog} {r : Rule} (hr : r ∈ catalog.rules) :
    RuleEntry.ofMetadata r.metadata ∈ (ofCatalog catalog).entries := List.mem_map_of_mem hr

theorem candidates_ofCatalog (catalog : Catalog) :
    (ofCatalog catalog).candidates = catalog.rules.flatMap Rule.candidates := by
  rw [candidates, ofCatalog, List.flatMap_map]
  rfl

end Registry

/-- Among the candidates of a registry those of a rule are found by their id. -/
theorem Registry.filter_candidates {catalog : Catalog} {r : Rule} (hr : r ∈ catalog.rules) :
    (Registry.ofCatalog catalog).candidates.filter (·.rule = r.id) = r.candidates := by
  rw [candidates_ofCatalog]
  exact filter_flatMap_of_mem Rule.id Candidate.rule Rule.candidates
    (fun _ _ => Rule.rule_of_mem_candidates) catalog.rules catalog.ids_nodup r hr

end RuleScout
