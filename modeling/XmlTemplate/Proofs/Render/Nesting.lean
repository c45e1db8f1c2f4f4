import XmlTemplate.Proofs.Format.Acceptance
import XmlTemplate.Proofs.Render.Interruption
import XmlTemplate.Proofs.Xml.Nesting

/-!
# Nesting of what is rendered

Elements of a template stand inside one another up to some depth. Rendering opens one element at a time
for each of them: a repetition closes an element before it opens the next one, a scope opens none, and
host data is escaped. So nowhere in what is written are more elements open than the template has
inside one another, whether rendering fails or not.

Results:
1. `elementDepthAll_le_depthAll`: scopes count for the limit of formats and not for elements.
2. `confined_emit`: an element is one level deeper than what its body writes.
3. `confined_render`, `confined_renderAll`: nodes open no more elements than stand inside one another.
4. `renderTo_openElements`: the same for the template of a format, at every place of what it adds to a
   sink.
-/

namespace XmlTemplate.Node

mutual
/-- The number of elements that stand inside one another, the node itself counted if it is one. -/
def elementDepth : Node → Nat
  | .element _ children => elementDepthAll children + 1
  | .text _ => 0
  | .value _ => 0
  | .scope _ children => elementDepthAll children

/-- The greatest number of elements that stand inside one another in the nodes. -/
def elementDepthAll : List Node → Nat
  | [] => 0
  | node :: nodes => max node.elementDepth (elementDepthAll nodes)
end

mutual
theorem elementDepth_le_depth (node : Node) : node.elementDepth ≤ node.depth := by
  cases node with
  | element head children => exact Nat.succ_le_succ (elementDepthAll_le_depthAll children)
  | text text => exact Nat.le_refl 0
  | value source => exact Nat.le_refl 0
  | scope source children => exact Nat.le_succ_of_le (elementDepthAll_le_depthAll children)

theorem elementDepthAll_le_depthAll (nodes : List Node) : elementDepthAll nodes ≤ depthAll nodes := by
  cases nodes with
  | nil => exact Nat.le_refl 0
  | cons node nodes =>
    have first := elementDepth_le_depth node
    have others := elementDepthAll_le_depthAll nodes
    simp only [elementDepthAll, depthAll]
    omega
end

end XmlTemplate.Node

namespace XmlTemplate.Render

open Xml (openElements? startTag)
open Xml.Reader (Balanced Within)

/-! ## Actions -/

/-- Nowhere in what the action writes are more than `levels` elements open besides those around it, and
if it does not fail they are closed again. -/
structure Confined (levels : Nat) (action : Action Unit) : Prop where
  streams : Streams action
  within : Within levels (outcome action).2.toList
  balanced : (outcome action).1 = .ok () → Balanced (outcome action).2.toList

namespace Confined

variable {levels more : Nat} {first second action : Action Unit}

theorem of_outcome (streams : Streams action) {result : Except RenderError Unit} {text : String}
    (run : outcome action = (result, text)) (within : Within levels text.toList)
    (balanced : result = .ok () → Balanced text.toList) : Confined levels action where
  streams := streams
  within := by
    rw [run]
    exact within
  balanced := by
    rw [run]
    exact balanced

theorem pure (levels : Nat) : Confined levels (pure ()) :=
  of_outcome (.pure ()) rfl (.nil levels) fun _ => .nil

theorem throw {error : RenderError} (other : error ≠ .write) (levels : Nat) :
    Confined levels (throw error) :=
  of_outcome (.throw other) rfl (.nil levels) nofun

theorem write (raw : String) : Confined 0 (write (Xml.escapeText raw)) :=
  of_outcome (.write _) (outcome_write _) (Xml.Reader.within_escapeText raw) fun _ =>
    Xml.Reader.balanced_escapeText raw

theorem mono (confined : Confined levels action) (atMost : levels ≤ more) : Confined more action where
  streams := confined.streams
  within := confined.within.mono atMost
  balanced := confined.balanced

theorem append (one : Confined levels first) (two : Confined levels second) :
    Confined levels (first >>= fun _ => second) := by
  have streams := one.streams.bind fun _ => two.streams
  cases result : (outcome first).1 with
  | error error =>
    have whole := outcome_bind_error one.streams result fun _ => second
    exact .of_outcome streams whole one.within nofun
  | ok done =>
    have whole := outcome_bind_ok one.streams result (fun _ => second) two.streams
    have closed := one.balanced result
    refine .of_outcome streams whole ?_ fun reached => ?_
    · rw [String.toList_append]
      exact one.within.append closed two.within
    · rw [String.toList_append]
      exact closed.append (two.balanced reached)

end Confined

/-! ## Elements -/

/-- An element opens one element besides those that are opened inside it. -/
theorem confined_emit {levels : Nat} {body : Action Unit} (inner : Confined levels body) (head : Head)
    (object : Object) : Confined (levels + 1) (emit head object body) := by
  have streams := streams_emit head object inner.streams
  have emits := emits_emit head object inner.streams
  generalize run : outcome (emit head object body) = result at emits
  cases emits with
  | refused rejected => exact .of_outcome streams run (.nil _) nofun
  | cut named other =>
    -- what is there of the start tag is the beginning of a whole one
    have tag := Xml.Reader.within_startTag named
    rw [startTag, String.toList_append] at tag
    exact .of_outcome streams run (tag.of_append.mono (by omega)) nofun
  | inside named late =>
    refine .of_outcome streams run ?_ nofun
    rw [String.toList_append]
    exact inner.within.inside named
  | whole named done =>
    refine .of_outcome streams run ?_ fun _ => ?_
    · rw [String.toList_append, String.toList_append]
      exact inner.within.enclosed named (inner.balanced done)
    · rw [String.toList_append, String.toList_append]
      exact (inner.balanced done).enclosed named

/-! ## Nodes -/

/-- One round after another is written, and every round closes what it opens. -/
theorem confined_run {levels : Nat} {action : Object → Object → Action Unit}
    (each : ∀ front inner, Confined levels (action front inner)) (rounds : Rounds) :
    Confined levels (rounds.run action) := by
  have done (objects : List (Object × Object)) :
      Confined levels (objects.forM fun round => action round.1 round.2) := by
    induction objects with
    | nil => exact .pure levels
    | cons round objects ih => exact (each round.1 round.2).append ih
  unfold Rounds.run
  refine (done rounds.objects).append ?_
  cases rounds.failure with
  | none => exact .pure levels
  | some error => exact .throw (by simp) levels

mutual
theorem confined_render (node : Node) (object : Object) :
    Confined node.elementDepth (render node object) := by
  cases node with
  | element head children =>
    rw [render, forEach_eq_run]
    exact confined_run (fun front inner =>
      confined_emit (confined_renderAll children inner) head front) _
  | text text => exact .write text
  | value source =>
    rw [render, find_eq]
    cases resolve source object with
    | error error => exact .throw (by simp) _
    | ok found => exact .write found.text
  | scope source children =>
    rw [render, find_eq]
    cases resolve source object with
    | error error => exact .throw (by simp) _
    | ok found => exact confined_renderAll children found

theorem confined_renderAll (nodes : List Node) (object : Object) :
    Confined (Node.elementDepthAll nodes) (renderAll nodes object) := by
  cases nodes with
  | nil => exact .pure 0
  | cons node nodes =>
    exact ((confined_render node object).mono (Nat.le_max_left _ _)).append
      ((confined_renderAll nodes object).mono (Nat.le_max_right _ _))
end

/-! ## Templates -/

/-- A sink takes all of a text or a beginning of it. -/
theorem Sink.exists_add (sink : Sink) (text : String) :
    ∃ part rest, (sink.add text).1.text = sink.text ++ part ∧ part ++ rest = text := by
  cases taken : sink.add text with
  | mk after whole =>
    cases whole with
    | true => exact ⟨text, "", Sink.text_add taken, String.append_empty⟩
    | false =>
      obtain ⟨part, added, rest, cut⟩ := Sink.add_cut taken
      exact ⟨part, rest, added, cut⟩

/-- Whatever the host object is and whatever the sink takes, nowhere in the text that rendering adds are
more elements open than stand inside one another in the template, and those are no more than formats
may nest. -/
theorem renderTo_openElements {format : String} {template : Template}
    (compiled : Template.compile format = .ok template) (root : Object) (sink : Sink) :
    (∃ written, (template.renderTo root sink).2.text = sink.text ++ written ∧
      ∀ front back, written = front ++ back →
        ∃ count, openElements? front = some count ∧
          count ≤ Node.elementDepthAll template.nodes) ∧
    Node.elementDepthAll template.nodes ≤ Format.maxDepth := by
  obtain ⟨-, -, -, shallow⟩ := Template.compile_eq_ok_iff_document.mp compiled
  refine ⟨?_, Nat.le_trans (Node.elementDepthAll_le_depthAll template.nodes) shallow⟩
  have confined := confined_renderAll template.nodes root
  obtain ⟨written, rest, added, cut⟩ :=
    sink.exists_add (outcome (renderAll template.nodes root)).2
  refine ⟨written, ?_, fun front back whole => ?_⟩
  · rw [Template.renderTo, confined.streams.start_eq, Sink.receive, ← added]
    split <;> simp_all
  · have chars : (outcome (renderAll template.nodes root)).2.toList =
        front.toList ++ (back ++ rest).toList := by
      rw [← cut, whole, String.append_assoc, String.toList_append]
    obtain ⟨reader, read, few⟩ := confined.within [] [] _ _ chars
    refine ⟨reader.openElements, ?_, by simpa using few⟩
    rw [openElements?, read, Option.map_some]

/-- Cells of rows, where a cell is a sequence itself and its text looks like a start tag, and where the
last row cannot be repeated over. Three elements are open in the start tag of a cell and never more. -/
theorem renderTo_openElements_of_cells :
    let template : Template :=
      ⟨[.element ⟨.literal "t", none, []⟩ [.element ⟨.literal "r", some (.items .current), []⟩
        [.element ⟨.literal "c", some (.items .current), []⟩ [.value .current]]]]⟩
    let row := Object.sequence [.sequence [.sequence [.plain "x"] "", .plain "y"] "<d>", .plain "z"] ""
    let written := "<t><r><c>&lt;d&gt;</c><c>z</c></r><r>"
    Template.compile "<t<r*?<c*?&?>>>" = .ok template ∧
      template.renderTo (.sequence [row, .plain "w"] "") (.unbounded "") =
        (.error (.lookup ⟨"?", "*", .notRepeatable⟩), .unbounded written) ∧
      openElements? "<t><r><c>&lt;d&gt;</c><c" = some 3 ∧
      ∀ front back, written = front ++ back →
        ∃ count, openElements? front = some count ∧ count ≤ 3 := by
  intro template row written
  have compiled : Template.compile "<t<r*?<c*?&?>>>" = .ok template := by rfl
  have fails : template.renderTo (.sequence [row, .plain "w"] "") (.unbounded "") =
      (.error (.lookup ⟨"?", "*", .notRepeatable⟩), .unbounded written) := by rfl
  obtain ⟨⟨added, text, few⟩, -⟩ :=
    renderTo_openElements compiled (.sequence [row, .plain "w"] "") (.unbounded "")
  rw [fails] at text
  have same : written = added := text.trans String.empty_append
  exact ⟨compiled, fails, rfl, same ▸ few⟩

end XmlTemplate.Render
