import RuleScout.Command.Run
import RuleScout.Proofs.TreeWrites

/-!
# What a discovery leaves behind

The init command writes its file as its last act, and nothing can fail after that. So a run that
fails leaves every file as it was, and one that succeeds has changed its target alone.
-/

set_option autoImplicit false

namespace RuleScout

variable {p : Project} {catalog : Catalog} {named : Option String} {o : InitOptions}
variable {timer : Cancellation} {outcome : Outcome} {path text : String}

namespace InitOptions

theorem admits_eq_ok_iff :
    o.admits p = .ok () ↔ ∀ path, o.target p = .file path →
      p.tree.isPresent (p.absolute path) = true → o.force = true := by
  rw [admits]
  cases o.target p with
  | printed => simp
  | file path => cases p.tree.isPresent (p.absolute path) <;> cases o.force <;> simp

end InitOptions

namespace Project

theorem discover_eq_ok_iff [PathSearch] [TextFormats] :
    p.discover catalog named o timer = .ok outcome ↔
      o.admits p = .ok () ∧ ∃ base, p.loadConfig named p.root = .ok base ∧
        (Session.run catalog base.fileSelection p base o.allPatterns
          (o.cancellation timer)).outcome = .ok outcome := by
  rw [discover, bind_eq_ok_iff]
  constructor
  · rintro ⟨⟨⟩, hAdmits, h⟩
    exact ⟨hAdmits, bind_eq_ok_iff.mp h⟩
  · rintro ⟨hAdmits, h⟩
    exact ⟨(), hAdmits, bind_eq_ok_iff.mpr h⟩

theorem write_eq_ok_iff {tree : FileTree} :
    p.write path text = .ok tree ↔ p.tree.write (p.absolute path) text = .ok tree := by
  rw [write]
  cases p.tree.write (p.absolute path) text <;> simp [Except.mapError]

end Project

/-- A command that has failed and has left all files as they were. -/
def Effect.Abandoned (p : Project) (e : Effect) : Prop :=
  e.tree = p.tree ∧ ∃ f, e.verdict = .failed f

/-- A command that has put a text where the options want it. Only one file has changed, and what
was there before is replaced by force alone. -/
inductive Effect.Delivered (p : Project) (o : InitOptions) (text : String) (e : Effect) : Prop
  | printed (hTarget : o.target p = .printed) (hTree : e.tree = p.tree)
    (hOutput : ∃ explained, e.output = explained ++ text)
  | file (path : String) (l : Location) (hTarget : o.target p = .file path)
    (hEnd : p.tree.endOf (p.absolute path) = some l)
    (hForce : (p.tree.at? l).isSome → o.force = true)
    (hTree : FileTree.Rewritten l text p.tree e.tree)
    (hRead : e.tree.read (p.absolute path) = .ok text)

namespace Effect

theorem delivered_of_write {e : Effect} (hAdmits : o.admits p = .ok ())
    (hTarget : o.target p = .file path) (hWrite : p.write path text = .ok e.tree) :
    e.Delivered p o text := by
  obtain ⟨l, hEnd, hTree⟩ := FileTree.rewritten_of_write (Project.write_eq_ok_iff.mp hWrite)
  have hPresent : p.tree.isPresent (p.absolute path) = (p.tree.at? l).isSome := by
    rw [FileTree.isPresent, FileTree.node?_eq, hEnd, Option.bind_some]
  refine .file path l hTarget hEnd ?_ hTree (FileTree.read_eq_ok_iff.mpr (hTree.node?_self hEnd))
  rw [← hPresent]
  exact InitOptions.admits_eq_ok_iff.mp hAdmits path hTarget

theorem deliver_file (p : Project) (ink : Ink) (path summary text explained : String) :
    deliver p ink (.file path) summary text explained =
      match p.write path text with
      | .error f => .fail p.tree f explained
      | .ok tree =>
        let created := ink.paint .green "✅" ++ " Created configuration file: " ++ path
        { tree, output := explained ++ linesText [summary, created] } := by
  exact rfl

theorem deliver_all_or_nothing (ink : Ink) (hAdmits : o.admits p = .ok ())
    (summary text explained : String) :
    let e := deliver p ink (o.target p) summary text explained
    e.Abandoned p ∨ e.verdict = .passed ∧ e.Delivered p o text := by
  cases hTarget : o.target p with
  | printed => exact .inr ⟨rfl, .printed hTarget rfl ⟨explained, rfl⟩⟩
  | file path =>
    rw [deliver_file]
    cases hWrite : p.write path text with
    | error f => exact .inl ⟨rfl, f, rfl⟩
    | ok tree => exact .inr ⟨rfl, delivered_of_write hAdmits hTarget hWrite⟩

/-- What is discovered is delivered or nothing happens. -/
theorem ofInit_all_or_nothing [TextFormats] (catalog : Catalog) (ink : Ink)
    {discovered : Except Failure Outcome}
    (hAdmits : ∀ outcome, discovered = .ok outcome → o.admits p = .ok ()) :
    let e := ofInit p catalog ink o discovered
    e.Abandoned p ∨ e.verdict = .passed ∧ ∃ outcome text, discovered = .ok outcome ∧
      TextFormats.render o.format (outcome.configFor catalog o) = .ok text ∧
      e.Delivered p o text := by
  cases discovered with
  | error f => exact .inl ⟨rfl, f, rfl⟩
  | ok outcome =>
    rw [ofInit]
    cases hRender : TextFormats.render o.format (outcome.configFor catalog o) with
    | error f => exact .inl ⟨rfl, f, rfl⟩
    | ok text =>
      rcases deliver_all_or_nothing ink (hAdmits outcome rfl) outcome.summary text
        (if o.explain then outcome.explanation ink else "") with hFails | ⟨hPassed, hDelivered⟩
      · exact .inl hFails
      · exact .inr ⟨hPassed, outcome, text, rfl, hRender, hDelivered⟩

end Effect

/-- An init command either fails and leaves all files as they were, or the text of the
configuration that it has discovered has been delivered. -/
theorem init_all_or_nothing [PathSearch] [TextFormats] (p : Project) (catalog : Catalog) (ink : Ink)
    (o : InitOptions) (g : GlobalOptions) (timer : Cancellation) :
    let e := (Command.init o).run g ink catalog p timer
    e.Abandoned p ∨ e.verdict = .passed ∧ ∃ base outcome text,
      p.loadConfig g.config p.root = .ok base ∧
      (Session.run catalog base.fileSelection p base o.allPatterns
        (o.cancellation timer)).outcome = .ok outcome ∧
      TextFormats.render o.format (outcome.configFor catalog o) = .ok text ∧
      e.Delivered p o text := by
  intro e
  have hAdmits (outcome : Outcome) (h : p.discover catalog g.config o timer = .ok outcome) :
      o.admits p = .ok () := (Project.discover_eq_ok_iff.mp h).1
  rcases Effect.ofInit_all_or_nothing catalog ink hAdmits
    with hFails | ⟨hPassed, outcome, text, hDiscover, hRender, hDelivered⟩
  · exact .inl hFails
  · obtain ⟨-, base, hBase, hOutcome⟩ := Project.discover_eq_ok_iff.mp hDiscover
    exact .inr ⟨hPassed, base, outcome, text, hBase, hOutcome, hRender, hDelivered⟩

end RuleScout
