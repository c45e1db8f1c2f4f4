import XmlTemplate.Proofs.Render.Forest
import XmlTemplate.Proofs.Xml.Reread

/-!
# Checking rendered text

A text that rendering gives passes the check of well-formed documents, which then counts an element
for each round of each repetition. Names that host data gives may be the same for two attributes of
one element; only then the check fails, at such an attribute.

Results:
1. `length_startsAll_trees`: the trees of a node have an element for each round.
2. `checkWellFormed_render`: the check of a rendered text.
-/

namespace XmlTemplate.Render

open Result (bind_eq_ok)
open Xml (Tree checkWellFormed spellAll startsAll)

/-! ## Emitted elements -/

/-- The sum over the rounds. -/
def Rounds.total (count : Object → Object → Nat) : List (Object × Object) → Nat
  | [] => 0
  | round :: rounds => count round.1 round.2 + total count rounds

mutual
/-- The number of elements that a node emits: one for each round, and those inside it. -/
def emitted : Node → Object → Nat
  | .element head children, object =>
    Rounds.total (fun _ inner => 1 + emittedAll children inner)
      (rounds head.repetition object).objects
  | .text _, _ => 0
  | .value _, _ => 0
  | .scope source children, object =>
    match resolve source object with
    | .error _ => 0
    | .ok found => emittedAll children found

/-- The number of elements that nodes emit. -/
def emittedAll : List Node → Object → Nat
  | [], _ => 0
  | node :: nodes, object => emitted node object + emittedAll nodes object
end

theorem length_startsAll_elementOf {head : Head} {object : Object}
    {children : Except RenderError (List Tree)} {forest : List Tree} {count : Nat}
    (inner : ∀ trees, children = .ok trees → (startsAll trees).length = count)
    (found : elementOf head object children = .ok forest) :
    (startsAll forest).length = 1 + count := by
  obtain ⟨tag, _, found⟩ := bind_eq_ok.mp found
  obtain ⟨attributes, _, found⟩ := bind_eq_ok.mp found
  obtain ⟨trees, inside, found⟩ := bind_eq_ok.mp found
  cases found
  simp [startsAll, Tree.starts, inner trees inside, Nat.add_comm]

theorem length_startsAll_gather {trees : Object → Object → Except RenderError (List Tree)}
    {count : Object → Object → Nat}
    (each : ∀ front inner forest, trees front inner = .ok forest →
      (startsAll forest).length = count front inner)
    {objects : List (Object × Object)} {forest : List Tree}
    (found : Rounds.gather trees objects = .ok forest) :
    (startsAll forest).length = Rounds.total count objects := by
  induction objects generalizing forest with
  | nil =>
    cases found
    rfl
  | cons round objects ih =>
    obtain ⟨first, one, found⟩ := bind_eq_ok.mp found
    obtain ⟨others, rest, found⟩ := bind_eq_ok.mp found
    cases found
    rw [Xml.startsAll_append, List.length_append, each _ _ _ one, ih rest, Rounds.total]

mutual
theorem length_startsAll_trees {node : Node} {object : Object} {forest : List Tree}
    (found : trees node object = .ok forest) :
    (startsAll forest).length = emitted node object := by
  cases node with
  | element head children =>
    rw [trees] at found
    exact length_startsAll_gather (fun front inner forest grown =>
      length_startsAll_elementOf (fun forest inside => length_startsAll_treesAll inside) grown)
      (Rounds.gather_of_forest found)
  | text text =>
    cases found
    rfl
  | value source =>
    obtain ⟨text, _, found⟩ := bind_eq_ok.mp found
    cases found
    rfl
  | scope source children =>
    rw [trees] at found
    rw [emitted]
    cases resolved : resolve source object with
    | error error => simp [resolved] at found
    | ok inside =>
      simp only [resolved] at found
      exact length_startsAll_treesAll found

theorem length_startsAll_treesAll {nodes : List Node} {object : Object} {forest : List Tree}
    (found : treesAll nodes object = .ok forest) :
    (startsAll forest).length = emittedAll nodes object := by
  cases nodes with
  | nil =>
    cases found
    rfl
  | cons node nodes =>
    obtain ⟨first, one, found⟩ := bind_eq_ok.mp found
    obtain ⟨others, rest, found⟩ := bind_eq_ok.mp found
    cases found
    rw [Xml.startsAll_append, List.length_append, length_startsAll_trees one,
      length_startsAll_treesAll rest, emittedAll]
end

/-! ## Templates -/

/-- A rendered text has so many elements as its template emits, and the check finds them all unless a
start tag has an attribute name twice. That is the one fault it can find. -/
theorem checkWellFormed_render {template : Template} {root : Object} {text : String}
    (done : template.render root = .ok text) :
    ∃ trees, forest template root = .ok trees ∧ text = spellAll trees ∧
      ((∀ start ∈ startsAll trees, start.Distinct) →
        checkWellFormed text = .ok (emittedAll template.nodes root)) ∧
      ((∃ start ∈ startsAll trees, ¬ start.Distinct) →
        ∃ offset first, checkWellFormed text = .error (.attributes (.duplicated offset first))) ∧
      ∀ error, checkWellFormed text = .error error → ∃ cause, error = .attributes cause := by
  rw [render_eq_spellAll] at done
  cases found : forest template root with
  | error error => simp [found, Except.map] at done
  | ok trees =>
    rw [found] at done
    cases done
    have named := allNamed_treesAll found
    have counted : (∀ start ∈ startsAll trees, start.Distinct) →
        checkWellFormed (spellAll trees) = .ok (emittedAll template.nodes root) := by
      intro distinct
      rw [Xml.checkWellFormed_of_distinct named distinct, length_startsAll_treesAll found]
    refine ⟨trees, rfl, rfl, counted, Xml.checkWellFormed_of_repeated named, ?_⟩
    intro error fails
    by_cases distinct : ∀ start ∈ startsAll trees, start.Distinct
    · cases (counted distinct).symm.trans fails
    · obtain ⟨offset, first, refused⟩ :=
        Xml.checkWellFormed_of_repeated named (by simpa using distinct)
      cases refused.symm.trans fails
      exact ⟨.duplicated offset first, rfl⟩

/-- An attribute is named by each item of a sequence. The element for the second item has another
attribute of this name in the one case and not in the other. -/
theorem checkWellFormed_render_named_by_items :
    let template : Template :=
      ⟨[.element ⟨.literal "row", some (.items .current),
        [⟨.literal "key", .literal "<"⟩, ⟨.current, .current⟩]⟩ []]⟩
    let apart := "<row key=\"&lt;\" a=\"a\"></row><row key=\"&lt;\" b=\"b\"></row>"
    let alike := "<row key=\"&lt;\" a=\"a\"></row><row key=\"&lt;\" key=\"key\"></row>"
    template.render (.sequence [.plain "a", .plain "b"] "") = .ok apart ∧
      checkWellFormed apart = .ok 2 ∧
      template.render (.sequence [.plain "a", .plain "key"] "") = .ok alike ∧
      ∃ offset first, checkWellFormed alike = .error (.attributes (.duplicated offset first)) := by
  intro template apart alike
  have distinct : template.render (.sequence [.plain "a", .plain "b"] "") = .ok apart := rfl
  have repeated : template.render (.sequence [.plain "a", .plain "key"] "") = .ok alike := rfl
  obtain ⟨_, grown, -, counted, -⟩ := checkWellFormed_render distinct
  obtain ⟨_, grownAlike, -, -, refused, -⟩ := checkWellFormed_render repeated
  cases grown
  cases grownAlike
  exact ⟨distinct, counted (by decide), repeated, refused (by decide)⟩

end XmlTemplate.Render
