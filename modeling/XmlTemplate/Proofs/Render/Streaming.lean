import XmlTemplate.Proofs.Render.Repetition

/-!
# Rendering into any sink

What an action writes does not depend on the sink that it writes into. An action that *streams*
is known from one run, into the empty sink without a limit: every other sink receives the same
text, as far as it has room, and the first write that does not fit is the last one.

Results:
1. `Sink.receive_append`: a text that is received in two pieces is received as a whole.
2. `Streams.bind`, `Streams.forM`: actions in a row stream if each of them does.
3. `streams_render`, `streams_renderAll`: rendering streams.
4. `renderTo_sinks`: rendering into an unlimited sink, a limited one and a text, from one run.
-/

namespace XmlTemplate.Render

variable {α β : Type}

/-! ## One run -/

/-- The result of an action on the empty sink without a limit, and the text that it leaves there. -/
def outcome (action : Action α) : Except RenderError α × String :=
  ((action.start (.unbounded "")).1, (action.start (.unbounded "")).2.text)

/-- A sink is given a text. The result stands if the sink takes all of it. -/
def Sink.receive (sink : Sink) (text : String) (result : Except RenderError α) :
    Except RenderError α × Sink :=
  match sink.add text with
  | (after, true) => (result, after)
  | (after, false) => (.error .write, after)

/-- Every sink receives the text of the one run, and nothing but a full sink fails to take it. -/
structure Streams (action : Action α) : Prop where
  start_eq : ∀ sink, action.start sink = sink.receive (outcome action).2 (outcome action).1
  not_write : (outcome action).1 ≠ .error .write

/-! ## Sinks -/

namespace Sink

theorem receive_unbounded (before text : String) (result : Except RenderError α) :
    (unbounded before).receive text result = (result, unbounded (before ++ text)) := rfl

theorem receive_fits {text : String} {room : Nat} (fits : text.length ≤ room) (before : String)
    (result : Except RenderError α) :
    (⟨before, some room⟩ : Sink).receive text result =
      (result, ⟨before ++ text, some (room - text.length)⟩) := by
  simp [receive, add, fits]

theorem receive_cut {text : String} {room : Nat} (cut : room < text.length) (before : String)
    (result : Except RenderError α) :
    (⟨before, some room⟩ : Sink).receive text result =
      (.error .write, ⟨before ++ String.ofList (text.toList.take room), some 0⟩) := by
  have tooLong : ¬ text.length ≤ room := by omega
  simp [receive, add, tooLong]

@[simp] theorem receive_empty (sink : Sink) (result : Except RenderError α) :
    sink.receive "" result = (result, sink) := by
  obtain ⟨before, room⟩ := sink
  cases room <;> simp [receive, add]

theorem add_append (sink : Sink) (first second : String) :
    sink.add (first ++ second) =
      match sink.add first with
      | (after, true) => after.add second
      | (after, false) => (after, false) := by
  obtain ⟨before, _ | room⟩ := sink
  · simp [add, String.append_assoc]
  · by_cases fits : first.length ≤ room
    -- the first piece leaves room for all of the second, or for a part of it
    · by_cases both : first.length + second.length ≤ room
      · have left : second.length ≤ room - first.length := by omega
        simp [add, fits, both, left, String.append_assoc, Nat.sub_sub]
      · have left : ¬ second.length ≤ room - first.length := by omega
        have whole : List.take room first.toList = first.toList :=
          List.take_of_length_le (by simpa [String.length_toList] using fits)
        simp [add, fits, both, left, List.take_append, whole, String.length_toList,
          String.append_assoc]
    · have both : ¬ first.length + second.length ≤ room := by omega
      have nothing : room - first.length = 0 := by omega
      simp [add, fits, both, List.take_append, nothing, String.length_toList]

theorem receive_append (sink : Sink) (first second : String) (result : Except RenderError α) :
    sink.receive (first ++ second) result =
      match sink.add first with
      | (after, true) => after.receive second result
      | (after, false) => (.error .write, after) := by
  simp only [receive, add_append]
  rcases sink.add first with ⟨after, _ | _⟩ <;> rfl

end Sink

/-! ## Actions in a row -/

theorem outcome_eq_of_start {action : Action α} {result : Except RenderError α} {text : String}
    (run : action.start (.unbounded "") = (result, .unbounded text)) :
    outcome action = (result, text) := by
  rw [outcome, run]
  rfl

theorem start_bind (action : Action α) (next : α → Action β) (sink : Sink) :
    (action >>= next).start sink =
      match action.start sink with
      | (.ok x, after) => (next x).start after
      | (.error error, after) => (.error error, after) := by
  show (ExceptT.bindCont next (action sink).1 (action sink).2) = _
  simp only [Action.start, ExceptT.run, StateT.run]
  rcases action sink with ⟨_ | _, after⟩ <;> rfl

theorem Streams.start_unbounded {action : Action α} (streams : Streams action) (before : String) :
    action.start (.unbounded before) =
      ((outcome action).1, .unbounded (before ++ (outcome action).2)) := by
  rw [streams.start_eq, Sink.receive_unbounded]

theorem outcome_bind_ok {action : Action α} {x : α} (first : Streams action)
    (ok : (outcome action).1 = .ok x) (next : α → Action β) (second : Streams (next x)) :
    outcome (action >>= next) =
      ((outcome (next x)).1, (outcome action).2 ++ (outcome (next x)).2) := by
  have whole : (action >>= next).start (.unbounded "") =
      ((outcome (next x)).1, .unbounded ((outcome action).2 ++ (outcome (next x)).2)) := by
    simp [start_bind, first.start_unbounded, ok, second.start_unbounded]
  exact outcome_eq_of_start whole

theorem outcome_bind_error {action : Action α} {error : RenderError} (first : Streams action)
    (fails : (outcome action).1 = .error error) (next : α → Action β) :
    outcome (action >>= next) = (.error error, (outcome action).2) := by
  have whole : (action >>= next).start (.unbounded "") =
      (.error error, .unbounded (outcome action).2) := by
    simp [start_bind, first.start_unbounded, fails]
  exact outcome_eq_of_start whole

namespace Streams

theorem pure (x : α) : Streams (pure x : Action α) where
  start_eq sink := by
    show (Except.ok x, sink) = sink.receive "" (.ok x)
    rw [Sink.receive_empty]
  not_write := by
    show Except.ok x ≠ .error RenderError.write
    simp

theorem throw {error : RenderError} (other : error ≠ .write) :
    Streams (throw error : Action α) where
  start_eq sink := by
    show (Except.error error, sink) = sink.receive "" (.error error)
    rw [Sink.receive_empty]
  not_write := by
    show Except.error error ≠ .error RenderError.write
    simpa using other

theorem write (piece : String) : Streams (write piece) where
  start_eq sink := by
    have empty : (outcome (Render.write piece)).2 = piece := String.empty_append
    rw [empty]
    show Render.write piece sink = sink.receive piece (.ok ())
    unfold Render.write Sink.receive
    split <;> simp_all
  not_write := by
    show Except.ok () ≠ .error RenderError.write
    simp

theorem bind {action : Action α} {next : α → Action β} (first : Streams action)
    (second : ∀ x, Streams (next x)) : Streams (action >>= next) := by
  cases reached : (outcome action).1 with
  | ok x =>
    have whole := outcome_bind_ok first reached next (second x)
    refine ⟨fun sink => ?_, by simpa [whole] using (second x).not_write⟩
    rw [whole, start_bind, first.start_eq, Sink.receive_append, reached]
    simp only [Sink.receive]
    -- the second part starts only if the sink took all of the first text
    rcases sink.add (outcome action).2 with ⟨after, _ | _⟩
    · rfl
    · exact (second x).start_eq after
  | error error =>
    have whole := outcome_bind_error first reached next
    refine ⟨fun sink => ?_, by simpa [whole, reached] using first.not_write⟩
    rw [whole, start_bind, first.start_eq, reached]
    simp only [Sink.receive]
    rcases sink.add (outcome action).2 with ⟨after, _ | _⟩ <;> rfl

theorem forM {items : List β} {action : β → Action Unit}
    (each : ∀ item ∈ items, Streams (action item)) : Streams (items.forM action) := by
  induction items with
  | nil => exact Streams.pure ()
  | cons item items ih =>
    exact (each item (by simp)).bind fun _ => ih fun other member => each other (by simp [member])

end Streams

/-! ## Rendering -/

theorem streams_find (source : Expr) (object : Object) : Streams (find source object) := by
  unfold find
  cases resolve source object with
  | ok found => exact .pure found
  | error error => exact .throw (by simp)

theorem streams_tagName (name : Expr) (object : Object) : Streams (tagName name object) := by
  refine (streams_find name object).bind fun found => ?_
  split
  · exact .pure _
  · exact .throw (by simp)

theorem streams_attributeName (name : Expr) (object : Object) :
    Streams (attributeName name object) := by
  refine (streams_find name object).bind fun found => ?_
  split
  · exact .pure _
  · exact .throw (by simp)

theorem streams_emitAttribute (item : Attribute) (object : Object) :
    Streams (emitAttribute item object) :=
  (streams_attributeName item.name object).bind fun _ =>
    (streams_find item.value object).bind fun _ => .write _

theorem streams_emit (head : Head) (object : Object) {body : Action Unit} (inner : Streams body) :
    Streams (emit head object body) :=
  (streams_tagName head.name object).bind fun _ =>
    (Streams.write _).bind fun _ =>
      (Streams.forM fun item _ => streams_emitAttribute item object).bind fun _ =>
        (Streams.write _).bind fun _ => inner.bind fun _ => .write _

theorem streams_forEach (repetition : Option Repetition) (object : Object)
    {action : Object → Object → Action Unit} (each : ∀ front inner, Streams (action front inner)) :
    Streams (forEach repetition object action) := by
  rw [forEach_eq_run]
  refine (Streams.forM fun round _ => each round.1 round.2).bind fun _ => ?_
  cases (rounds repetition object).failure with
  | none => exact .pure ()
  | some error => exact .throw (by simp)

mutual
theorem streams_render (node : Node) (object : Object) : Streams (render node object) := by
  cases node with
  | element head children =>
    exact streams_forEach head.repetition object fun front inner =>
      streams_emit head front (streams_renderAll children inner)
  | text text => exact .write _
  | value source => exact (streams_find source object).bind fun found => .write _
  | scope source children =>
    exact (streams_find source object).bind fun found => streams_renderAll children found

theorem streams_renderAll (nodes : List Node) (object : Object) :
    Streams (renderAll nodes object) := by
  cases nodes with
  | nil => exact .pure ()
  | cons node nodes =>
    exact (streams_render node object).bind fun _ => streams_renderAll nodes object
end

/-- One run into the empty sink without a limit tells every other run. A sink without a limit gets
the text after what it holds, a limited one as much of it as there is room for, and the text is given
as a whole only when nothing failed. -/
theorem renderTo_sinks (template : Template) (root : Object) :
    ∃ text result,
      template.renderTo root (.unbounded "") = (result, .unbounded text) ∧
      (∀ before, template.renderTo root (.unbounded before) = (result, .unbounded (before ++ text))) ∧
      (∀ before room, text.length ≤ room →
        template.renderTo root ⟨before, some room⟩ =
          (result, ⟨before ++ text, some (room - text.length)⟩)) ∧
      (∀ before room, room < text.length →
        template.renderTo root ⟨before, some room⟩ =
          (.error .write, ⟨before ++ String.ofList (text.toList.take room), some 0⟩)) ∧
      result ≠ .error .write ∧
      template.render root = result.map fun _ => text := by
  have streams := streams_renderAll template.nodes root
  have onSink (sink : Sink) : template.renderTo root sink = _ := streams.start_eq sink
  have onEmpty := onSink (.unbounded "")
  rw [Sink.receive_unbounded, String.empty_append] at onEmpty
  refine ⟨(outcome (renderAll template.nodes root)).2, (outcome (renderAll template.nodes root)).1,
    onEmpty, fun before => ?_, fun before room fits => ?_, fun before room cut => ?_,
    streams.not_write, ?_⟩
  · rw [onSink, Sink.receive_unbounded]
  · rw [onSink, Sink.receive_fits fits]
  · rw [onSink, Sink.receive_cut cut]
  · rw [Template.render, onEmpty]
    cases (outcome (renderAll template.nodes root)).1 <;> rfl

end XmlTemplate.Render
