import XmlTemplate.Proofs.Format.Detached
import XmlTemplate.Proofs.Render.Forest
import XmlTemplate.Serializer.Basic

/-!
# Formats in a row

Two formats that compile can be written one after another: they compile to the nodes of both, and give
the text of the one and then that of the other. The first error of the two is the error of the whole.

Results:
1. `treesAll_append`, `render_append`: the trees and the text of nodes in a row.
2. `serialize_append`: the text of two formats in a row.
-/

namespace XmlTemplate

open Render (RenderError)

/-! ## Templates -/

theorem Render.treesAll_append (nodes others : List Node) (object : Object) :
    treesAll (nodes ++ others) object = (do
      let front ← treesAll nodes object
      let back ← treesAll others object
      return front ++ back) := by
  induction nodes with
  | nil =>
    rw [List.nil_append, treesAll]
    cases treesAll others object <;> rfl
  | cons node nodes ih =>
    simp only [List.cons_append, treesAll, ih, bind_assoc, pure_bind, List.append_assoc]

theorem Template.render_append (first second : List Node) (root : Object) :
    render ⟨first ++ second⟩ root = (do
      let left ← render ⟨first⟩ root
      let right ← render ⟨second⟩ root
      return left ++ right) := by
  simp only [Render.render_eq_spellAll, Render.forest, Render.treesAll_append]
  cases Render.treesAll first root with
  | error error => rfl
  | ok left =>
    cases Render.treesAll second root with
    | error error => rfl
    | ok right => exact congrArg Except.ok (Xml.spellAll_append left right)

/-! ## Formats -/

theorem serialize_of_compile {format : String} {template : Template}
    (compiled : Template.compile format = .ok template) (root : Object) :
    serialize format root = (template.render root).mapError .render := by
  have compiled : Template.compileWith Settings.standard.singleRoot format = .ok template := compiled
  rw [serialize, Serializer.compile, compiled]
  rfl

/-- Two formats in a row compile to the nodes of both. Their text is that of the first and then that of
the second, and their error is that of the first or, if it has none, that of the second. -/
theorem serialize_append {front back : String} {first second : Template}
    (left : Template.compile front = .ok first) (right : Template.compile back = .ok second) :
    Template.compile (front ++ back) = .ok ⟨first.nodes ++ second.nodes⟩ ∧
      ∀ root, serialize (front ++ back) root = (do
        let before ← serialize front root
        let after ← serialize back root
        return before ++ after) := by
  have whole := Template.compile_append left right
  refine ⟨whole, fun root => ?_⟩
  rw [serialize_of_compile whole, serialize_of_compile left, serialize_of_compile right,
    Template.render_append]
  cases first.render root with
  | error error => rfl
  | ok before => cases second.render root <;> rfl

/-- A format that ends with a bare word, and one that starts with a content. The key of the second is
missing in one of the objects. -/
theorem serialize_append_word :
    let first : Template := ⟨[.element ⟨.literal "a", none, []⟩ [], .text "x"]⟩
    let second : Template := ⟨[.value (.chain .current [.key "k"])]⟩
    Template.compile "<a>&x" = .ok first ∧ Template.compile "&.k" = .ok second ∧
      Template.compile "<a>&x&.k" = .ok ⟨first.nodes ++ second.nodes⟩ ∧
      serialize "<a>&x&.k" (.mapping [("k", .plain "<")] "") = .ok "<a></a>x&lt;" ∧
      serialize "<a>&x&.k" (.mapping [] "") =
        .error (.render (.lookup ⟨"?", "k", .noEntry⟩)) := by
  intro first second
  have left : Template.compile "<a>&x" = .ok first := rfl
  have right : Template.compile "&.k" = .ok second := rfl
  obtain ⟨whole, texts⟩ := serialize_append left right
  exact ⟨left, right, whole, texts _, texts _⟩

end XmlTemplate
