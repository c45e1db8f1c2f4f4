import XmlTemplate.Proofs.Format.Offsets
import XmlTemplate.Proofs.Render.Forest

/-!
# A single root

A serializer can ask for templates that are one element without repetition. Any other template is
refused at the first place that shows it: at the start, or where the second node starts. The texts of a
template that is not refused are one element each, with nothing before or after it.

Results:
1. `nodesOf_true`: what asking for a single root adds to compiling.
2. `checkRoot_of_isSingleRoot`, `refusedAt_of_checkRoot`: what the check passes and where it refuses.
3. `isElement_render`: the texts of a single root.
4. `compileWith_singleRoot`: formats when a single root is asked for.
-/

namespace XmlTemplate

open Result (bind_eq_ok map_eq_ok)
open Xml (AllNamed endTag merge readFragment spellAll startTag)

/-- The template is one element that is not repeated. -/
def Template.IsSingleRoot (template : Template) : Prop :=
  ∃ name attributes children, template.nodes = [.element ⟨name, none, attributes⟩ children]

/-- Where a template is refused as a single root: at the start if it is empty, where its node starts if
it has only one, and where its second node starts otherwise. -/
def Template.RefusedAt (format : String) (offset : Nat) : List Node → Prop
  | [] => offset = 0
  | [node] => ∀ place, StartsAt format [] [node] place ↔ place = offset
  | first :: second :: others =>
    ∀ place, StartsAt format [first] (second :: others) place ↔ place = offset

/-- A text is one element with the names of its kind, and nothing stands before or after it. -/
def Xml.IsElement (text : String) : Prop :=
  ∃ tag attributes children, AllNamed [.element tag attributes children] ∧
    text = startTag tag attributes ++ spellAll children ++ endTag tag ∧
    readFragment text = some [.element tag attributes (merge children)]

/-! ## Refusals -/

namespace Template

open Format (Fault FormatError checkRoot)

/-- Asking for a single root adds a check of the nodes. -/
theorem nodesOf_true (format : List Char) :
    nodesOf true format = (do
      let nodes ← nodesOf false format
      checkRoot nodes
      return nodes) := by
  simp [nodesOf]

theorem checkRoot_of_isSingleRoot {placed : List (Nat × Node)}
    (single : IsSingleRoot ⟨placed.map Prod.snd⟩) : checkRoot placed = .ok () := by
  obtain ⟨name, attributes, children, shape⟩ := single
  obtain ⟨⟨offset, node⟩, rfl, rfl⟩ := List.map_eq_singleton_iff.mp shape
  rfl

/-- The check refuses all other nodes, at the offset that is kept for the first or the second. -/
theorem refusedAt_of_checkRoot {format : String} {placed : List (Nat × Node)}
    (read : nodesOf false format.toList = .ok placed) (other : ¬ IsSingleRoot ⟨placed.map Prod.snd⟩) :
    ∃ fault, checkRoot placed = .error fault ∧
      RefusedAt format fault.offset (placed.map Prod.snd) := by
  unfold checkRoot
  split
  · exact ⟨_, rfl, rfl⟩
  · exact absurd ⟨_, _, _, rfl⟩ other
  · exact ⟨_, rfl, @startsAt_iff format [] [] _ _ read⟩
  · exact ⟨_, rfl, @startsAt_iff format [] [] _ _ read⟩
  · rename_i first offset second others
    exact ⟨_, rfl, @startsAt_iff format [first] others _ _ read⟩

theorem compileWith_eq_ok_iff {singleRoot : Bool} {format : String} {template : Template} :
    compileWith singleRoot format = .ok template ↔
      ∃ placed, nodesOf singleRoot format.toList = .ok placed ∧
        ⟨placed.map Prod.snd⟩ = template := by
  rw [compileWith]
  cases nodesOf singleRoot format.toList <;> simp

theorem compileWith_eq_error_iff {singleRoot : Bool} {format : String} {error : FormatError} :
    compileWith singleRoot format = .error error ↔
      ∃ fault, nodesOf singleRoot format.toList = .error fault ∧
        .ofFault format.toList fault = error := by
  rw [compileWith]
  cases nodesOf singleRoot format.toList <;> simp

end Template

/-! ## Texts -/

namespace Render

/-- An element that is not repeated stands for one tree. -/
theorem trees_once (name : Expr) (attributes : List Attribute) (children : List Node)
    (object : Object) :
    trees (.element ⟨name, none, attributes⟩ children) object =
      elementOf ⟨name, none, attributes⟩ object (treesAll children object) := by
  rw [trees, rounds, Rounds.forest, Rounds.all, Rounds.gather, Rounds.gather]
  cases elementOf ⟨name, none, attributes⟩ object (treesAll children object) with
  | error error => rfl
  | ok forest => simp [bind, Except.bind, pure, Except.pure]

theorem isElement_render {template : Template} (single : template.IsSingleRoot) {root : Object}
    {text : String} (done : template.render root = .ok text) : Xml.IsElement text := by
  obtain ⟨name, attributes, children, shape⟩ := single
  rw [render_eq_spellAll] at done
  obtain ⟨trees, found, rfl⟩ := map_eq_ok.mp done
  have named := allNamed_treesAll found
  rw [forest, shape, treesAll, trees_once] at found
  obtain ⟨first, one, found⟩ := bind_eq_ok.mp found
  cases found
  obtain ⟨tag, _, one⟩ := bind_eq_ok.mp one
  obtain ⟨pairs, _, one⟩ := bind_eq_ok.mp one
  obtain ⟨inner, _, one⟩ := bind_eq_ok.mp one
  cases one
  refine ⟨tag, pairs, inner, named, ?_, ?_⟩
  · simp [spellAll, Xml.Tree.spell]
  · simpa [merge, Xml.mergedAll, Xml.Tree.merged, Xml.joinTexts] using
      Xml.readFragment_spellAll (Xml.allPlain_of_allNamed named)

end Render

/-! ## Formats -/

namespace Template

/-- Asking for a single root keeps every error of the format, and every template that is one element
without repetition. It refuses all other templates at their place. Whatever the host data is, a text of
a template that is not refused is one element. -/
theorem compileWith_singleRoot (format : String) :
    (∀ error, compile format = .error error → compileWith true format = .error error) ∧
      (∀ template, compile format = .ok template →
        (template.IsSingleRoot → compileWith true format = .ok template) ∧
        (¬ template.IsSingleRoot → ∃ error, compileWith true format = .error error ∧
          RefusedAt format error.fault.offset template.nodes)) ∧
      ∀ template, compileWith true format = .ok template → ∀ root text,
        template.render root = .ok text → Xml.IsElement text := by
  refine ⟨fun error failed => ?_, fun template compiled => ⟨fun single => ?_, fun other => ?_⟩,
    fun template compiled root text done => ?_⟩
  · obtain ⟨fault, read, rfl⟩ := compileWith_eq_error_iff.mp failed
    refine compileWith_eq_error_iff.mpr ⟨fault, ?_, rfl⟩
    rw [nodesOf_true, read]
    rfl
  · obtain ⟨placed, read, rfl⟩ := compileWith_eq_ok_iff.mp compiled
    refine compileWith_eq_ok_iff.mpr ⟨placed, ?_, rfl⟩
    simp only [nodesOf_true, read, checkRoot_of_isSingleRoot single, bind, Except.bind, pure, Except.pure]
  · obtain ⟨placed, read, rfl⟩ := compileWith_eq_ok_iff.mp compiled
    obtain ⟨fault, refused, place⟩ := refusedAt_of_checkRoot read other
    refine ⟨.ofFault format.toList fault, compileWith_eq_error_iff.mpr ⟨fault, ?_, rfl⟩, place⟩
    simp only [nodesOf_true, read, refused, bind, Except.bind]
  · obtain ⟨placed, read, rfl⟩ := compileWith_eq_ok_iff.mp compiled
    rw [nodesOf_true] at read
    obtain ⟨nodes, read, passed⟩ := bind_eq_ok.mp read
    obtain ⟨⟨⟩, checked, same⟩ := bind_eq_ok.mp passed
    cases same
    refine Render.isElement_render (Classical.byContradiction fun other => ?_) done
    obtain ⟨fault, refused, -⟩ := refusedAt_of_checkRoot read other
    cases checked.symm.trans refused

/-- Two nodes, a repeated element, and a single root with host data that spells markup. -/
theorem compileWith_singleRoot_hostile :
    let second : Node := .element ⟨.literal "b", none, []⟩ []
    let repeated : Node := .element ⟨.literal "a", some (.items .current), []⟩ []
    let single : Template := ⟨[.element ⟨.literal "a", none, []⟩ [.value .current]]⟩
    compileWith true "&x<b>" = .error ⟨⟨2, .endAfterRoot, .anotherNode⟩, "&x<b>"⟩ ∧
      RefusedAt "&x<b>" 2 [.text "x", second] ∧
      compileWith true "<a*?>" = .error ⟨⟨0, .singleRoot, .repeatedElement⟩, "<a*?>"⟩ ∧
      RefusedAt "<a*?>" 0 [repeated] ∧
      compileWith true "<a&?>" = .ok single ∧
      single.render (.plain "</a><b>") = .ok "<a>&lt;/a&gt;&lt;b&gt;</a>" ∧
      Xml.IsElement "<a>&lt;/a&gt;&lt;b&gt;</a>" := by
  intro second repeated single
  have two : compile "&x<b>" = .ok ⟨[.text "x", second]⟩ := rfl
  have often : compile "<a*?>" = .ok ⟨[repeated]⟩ := rfl
  have once : compileWith true "<a&?>" = .ok single := rfl
  have done : single.render (.plain "</a><b>") = .ok "<a>&lt;/a&gt;&lt;b&gt;</a>" := rfl
  obtain ⟨tooMany, refused, there⟩ :=
    ((compileWith_singleRoot "&x<b>").2.1 _ two).2 (by simp [IsSingleRoot])
  obtain ⟨tooOften, again, here⟩ :=
    ((compileWith_singleRoot "<a*?>").2.1 _ often).2 (by simp [IsSingleRoot, repeated])
  cases refused
  cases again
  exact ⟨rfl, there, rfl, here, once, done, (compileWith_singleRoot "<a&?>").2.2 _ once _ _ done⟩

end Template

end XmlTemplate
