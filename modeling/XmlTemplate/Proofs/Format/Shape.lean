import XmlTemplate.Proofs.Format.Acceptance

/-!
# The shape of templates

Templates are built from more expressions and nodes than formats can spell. Those of a format are of
one shape: chains go out from the object in scope, sources are no literals, and an element has one
content or elements and scopes inside it.

Results:
1. `Grammar.Source.isSource`, `Grammar.Value.wellShaped`: the expressions that the grammar derives.
2. `wellShaped_of_anyNode`: the nodes that it derives.
3. `wellShaped_of_compile`: a template of a format is of this shape, at every place.
-/

namespace XmlTemplate

/-! ## Shapes -/

/-- An index is a run of digits. -/
def Step.WellShaped : Step → Prop
  | .key _ => True
  | .index digits => Format.isDigits digits = true

/-- The object in scope, or what at least one segment reaches from it. -/
def Expr.IsSource : Expr → Prop
  | .literal _ => False
  | .current => True
  | .chain base steps => base = .current ∧ steps ≠ [] ∧ ∀ step ∈ steps, step.WellShaped

/-- A literal or a source. -/
def Expr.WellShaped : Expr → Prop
  | .literal _ => True
  | source => source.IsSource

/-- Something to repeat over is a source, and a count is a number of a machine word. -/
def Repetition.WellShaped : Repetition → Prop
  | .items source => source.IsSource
  | .entries source => source.IsSource
  | .times count => count < Decimal.wordBound

/-- Both expressions of an attribute are literals or sources. -/
structure Attribute.WellShaped (item : Attribute) : Prop where
  name : item.name.WellShaped
  value : item.value.WellShaped

/-- What stands before the children of an element. -/
structure Head.WellShaped (head : Head) : Prop where
  name : head.name.WellShaped
  repetition : ∀ repetition, head.repetition = some repetition → repetition.WellShaped
  /-- The keys of entries are the names. -/
  entries : ∀ source, head.repetition = some (.entries source) → head.name = .current
  attributes : ∀ item ∈ head.attributes, item.WellShaped

namespace Node

/-- A text or a value. -/
def IsContent : Node → Prop
  | .text _ | .value _ => True
  | .element .. | .scope .. => False

/-- An element or a scope. -/
def IsNested : Node → Prop
  | .element .. | .scope .. => True
  | .text _ | .value _ => False

/-- One content, or elements and scopes only. -/
def IsBody (children : List Node) : Prop :=
  (∃ only, children = [only] ∧ only.IsContent) ∨ ∀ child ∈ children, child.IsNested

mutual
/-- The shape of a node, at every place in it. -/
def WellShaped : Node → Prop
  | .element head children => head.WellShaped ∧ IsBody children ∧ AllWellShaped children
  | .text _ => True
  | .value source => source.IsSource
  | .scope source children => source.IsSource ∧ AllWellShaped children

/-- The shape of nodes, at every place in them. -/
def AllWellShaped : List Node → Prop
  | [] => True
  | node :: nodes => node.WellShaped ∧ AllWellShaped nodes
end

end Node

/-- The shape of the template of a format: that of its nodes, and a limit to their nesting. -/
structure Template.WellShaped (template : Template) : Prop where
  nodes : Node.AllWellShaped template.nodes
  depth : Node.depthAll template.nodes ≤ Format.maxDepth

theorem Expr.IsSource.wellShaped {source : Expr} (shaped : source.IsSource) : source.WellShaped := by
  cases source with
  | literal text => exact shaped.elim
  | current => trivial
  | chain base steps => exact shaped

/-! ## What the grammar derives -/

namespace Format.Grammar

variable {longest : Bool} {tokens rest : List Token}

theorem Segment.wellShaped {step : Step} (phrase : Segment tokens step rest) :
    step.WellShaped := by
  cases phrase with
  | index rest digits => exact digits
  | key rest digits | quoted text rest => trivial

theorem Segments.wellShaped {steps : List Step} (phrase : Segments longest tokens steps rest) :
    ∀ step ∈ steps, step.WellShaped := by
  induction phrase with
  | nil ends => simp
  | cons first others ih => exact List.forall_mem_cons.mpr ⟨first.wellShaped, ih⟩

theorem isSource_ofSteps {steps : List Step} (shaped : ∀ step ∈ steps, step.WellShaped) :
    (Expr.ofSteps steps).IsSource := by
  cases steps with
  | nil => trivial
  | cons step steps => exact ⟨rfl, by simp, shaped⟩

theorem Source.isSource {source : Expr} (phrase : Source longest tokens source rest) :
    source.IsSource := by
  cases phrase with
  | question run => exact isSource_ofSteps run.wellShaped
  | segments first run =>
    exact isSource_ofSteps (List.forall_mem_cons.mpr ⟨first.wellShaped, run.wellShaped⟩)

theorem Value.wellShaped {expr : Expr} (phrase : Value longest tokens expr rest) :
    expr.WellShaped := by
  cases phrase with
  | source phrase => exact phrase.isSource.wellShaped
  | bare word | quoted text => trivial

theorem Repeats.wellShaped {repetition : Repetition}
    (phrase : Repeats longest tokens repetition rest) : repetition.WellShaped := by
  cases phrase with
  | count rest digits small => exact small
  | items source => exact source.isSource

theorem Pairing.wellShaped {item : Attribute} (phrase : Pairing longest tokens item rest) :
    item.WellShaped := by
  cases phrase with
  | both name value => exact ⟨name.wellShaped, value.wellShaped⟩
  | nameOnly name => exact ⟨name.wellShaped, trivial⟩

/-- Only a tilde stands for entries, and it gives no other name than the object in scope. -/
theorem Tag.wellShaped {name : Expr} {repetition : Option Repetition}
    (tag : Tag longest tokens (name, repetition) rest) {attributes : List Attribute}
    (shaped : ∀ item ∈ attributes, item.WellShaped) :
    Head.WellShaped ⟨name, repetition, attributes⟩ := by
  cases tag with
  | entries source =>
    exact ⟨trivial, by rintro _ ⟨⟩; exact source.isSource, fun _ _ => rfl, shaped⟩
  | once name => exact ⟨name.wellShaped, nofun, nofun, shaped⟩
  | repeated name repetition =>
    refine ⟨name.wellShaped, by rintro _ ⟨⟩; exact repetition.wellShaped, ?_, shaped⟩
    rintro source ⟨⟩
    cases repetition

theorem Content.isContent {node : Node} (phrase : Content longest tokens node rest) :
    node.IsContent ∧ node.WellShaped := by
  cases phrase with
  | bare word | quoted text => exact ⟨trivial, trivial⟩
  | source source => exact ⟨trivial, source.isSource⟩

theorem Nested.isNested {node : Node} (phrase : Nested longest tokens node rest) :
    node.IsNested := by
  cases phrase <;> trivial

theorem Many.forall_mem {α : Type} {item : List Token → α → List Token → Prop}
    {property : α → Prop} {xs : List α} (many : Many item tokens xs rest)
    (each : ∀ tokens x rest, item tokens x rest → property x) : ∀ x ∈ xs, property x := by
  induction many with
  | nil rest => simp
  | cons first others ih => exact List.forall_mem_cons.mpr ⟨each _ _ _ first, ih⟩

theorem Many.imp {α : Type} {item other : List Token → α → List Token → Prop} {xs : List α}
    (many : Many item tokens xs rest)
    (each : ∀ tokens x rest, item tokens x rest → other tokens x rest) :
    Many other tokens xs rest := by
  induction many with
  | nil rest => exact .nil rest
  | cons first others ih => exact .cons (each _ _ _ first) ih

mutual
theorem wellShaped_of_anyNode {tokens rest : List Token} {node : Node}
    (phrase : AnyNode longest tokens node rest) : node.WellShaped := by
  cases phrase with
  | content content => exact content.isContent.2
  | nested phrase =>
    cases phrase with
    | content tag attributes child =>
      have shaped := tag.wellShaped (attributes.forall_mem fun _ _ _ => Pairing.wellShaped)
      exact ⟨shaped, .inl ⟨_, rfl, child.isContent.1⟩, child.isContent.2, trivial⟩
    | children tag attributes phrases =>
      have shaped := tag.wellShaped (attributes.forall_mem fun _ _ _ => Pairing.wellShaped)
      have nested := phrases.forall_mem fun _ _ _ => Nested.isNested
      exact ⟨shaped, .inr nested, wellShaped_of_many (phrases.imp fun _ _ _ => .nested)⟩
    | scope start phrases => exact ⟨start.isSource, wellShaped_of_many phrases⟩

theorem wellShaped_of_many {tokens rest : List Token} {nodes : List Node}
    (phrases : Many (AnyNode longest) tokens nodes rest) : Node.AllWellShaped nodes := by
  cases nodes with
  | nil => trivial
  | cons node nodes =>
    rcases phrases with _ | ⟨first, others⟩
    exact ⟨wellShaped_of_anyNode first, wellShaped_of_many others⟩
end

end Format.Grammar

/-! ## Templates of formats -/

namespace Template

theorem allWellShaped_of_compile {format : String} {template : Template}
    (compiled : compile format = .ok template) : Node.AllWellShaped template.nodes := by
  obtain ⟨stream, scanned, phrases, shallow⟩ := compile_eq_ok_iff_document.mp compiled
  exact Format.Grammar.wellShaped_of_many phrases

/-- Whatever the format is, its template is of the shape that the notation has. -/
theorem wellShaped_of_compile {format : String} {template : Template}
    (compiled : compile format = .ok template) : template.WellShaped := by
  obtain ⟨stream, scanned, phrases, shallow⟩ := compile_eq_ok_iff_document.mp compiled
  exact ⟨allWellShaped_of_compile compiled, shallow⟩

/-- A format with every kind of node, and a count, entries, an index and a key that is quoted. -/
theorem wellShaped_of_compile_entries :
    let template : Template :=
      ⟨[.element ⟨.literal "a", some (.times 2),
          [⟨.literal "b", .chain .current [.index "0", .key "c d"]⟩]⟩
        [.element ⟨.current, some (.entries (.chain .current [.key "e"])), []⟩ [.value .current],
          .scope (.chain .current [.key "f"]) [.text "g"]]]⟩
    compile "<a*2=b.0.\"c d\"<~.e&?>\x7b?.f&g\x7d>" = .ok template ∧ template.WellShaped := by
  intro template
  have compiled : compile "<a*2=b.0.\"c d\"<~.e&?>\x7b?.f&g\x7d>" = .ok template := by rfl
  exact ⟨compiled, wellShaped_of_compile compiled⟩

end Template

end XmlTemplate
