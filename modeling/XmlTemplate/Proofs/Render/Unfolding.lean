import XmlTemplate.Proofs.Render.Forest

/-!
# Repetitions unfolded

A repeated element does what the element without its repetition does for one object after another. The
objects are those of a collection, or the numbers below a count. Where an element is repeated for
entries, its start tag is that for the key, and its children are those for the value.

Results:
1. `InTurn.unique`: running actions in turn has one outcome.
2. `inTurn_forM`: a loop runs its rounds in turn.
3. `isRound_renderEntry`: a round writes one element, or a part of it and fails.
4. `render_unfolds`: a repeated element runs what its repetition unfolds to.
-/

namespace XmlTemplate

/-- The head without its repetition. -/
def Head.once (head : Head) : Head := { head with repetition := none }

/-- The head with a repetition. -/
def Head.repeated (head : Head) (repetition : Repetition) : Head :=
  { head with repetition := some repetition }

namespace Render

open Xml (Tree)

/-! ## Rounds -/

/-- The element without its repetition, for one object. -/
def renderOnce (head : Head) (children : List Node) (item : Object) : Action Unit :=
  render (.element head.once children) item

/-- The start tag of the element for the key, its children for the value, and the end tag for the name of
the key. -/
def renderEntry (head : Head) (children : List Node) (key value : Object) : Action Unit := do
  let tag ← openTag head.once key
  renderAll children value
  write (Xml.endTag tag)

/-- The element for an item that is a pair, and the error of an item that is none. -/
def renderPair (head : Head) (children : List Node) (source : Expr) (item : Object) : Action Unit :=
  match item.capabilities.sequence, item.item? 0, item.item? 1 with
  | true, some key, some value => renderEntry head children key value
  | _, _, _ => throw (.lookup ⟨source.spelling, "~", .notPairs⟩)

/-- What the repetition of an element stands for: a round for each item, pair, number or entry. -/
inductive Unfolds (head : Head) (children : List Node) (object : Object) :
    Repetition → List (Action Unit) → Prop
  | times (count : Nat) :
      Unfolds head children object (.times count)
        ((List.range count).map fun n => renderOnce head children (.ofNat n))
  | items {source : Expr} {items : Object} :
      resolve source object = .ok items → items.capabilities.sequence = true →
      Unfolds head children object (.items source) (items.items.map (renderOnce head children))
  | pairs {source : Expr} {items : Object} :
      resolve source object = .ok items → items.capabilities.sequence = false →
      items.capabilities.pairs = true →
      Unfolds head children object (.items source)
        (items.pairs.map fun entry => renderOnce head children (.pair entry.1 entry.2))
  | count {source : Expr} {items : Object} {count : Nat} :
      resolve source object = .ok items → items.capabilities.sequence = false →
      items.capabilities.pairs = false → items.count? = some count →
      Unfolds head children object (.items source)
        ((List.range count).map fun n => renderOnce head children (.ofNat n))
  | entries {source : Expr} {entries : Object} :
      resolve source object = .ok entries → entries.capabilities.pairs = true →
      Unfolds head children object (.entries source)
        (entries.pairs.map fun entry => renderEntry head children entry.1 entry.2)
  | entriesOfItems {source : Expr} {entries : Object} :
      resolve source object = .ok entries → entries.capabilities.pairs = false →
      entries.capabilities.sequence = true →
      Unfolds head children object (.entries source)
        (entries.items.map (renderPair head children source))

/-! ## Actions in turn -/

/-- A sink that holds what another one holds, and one element after it. -/
def Sink.GainsElement (before after : Sink) : Prop :=
  ∃ tag attributes children,
    after.text = before.text ++ (Tree.element tag attributes children).spell

/-- A sink that holds what another one holds, and perhaps more after it. -/
def Sink.Gains (before after : Sink) : Prop := ∃ part, after.text = before.text ++ part

/-- Actions are run one after another on the sink that the one before leaves. Each adds one element, and
the first that fails ends the run with its error and what it has added by then. -/
inductive InTurn : List (Action Unit) → Sink → Except RenderError Unit × Sink → Prop
  | done (sink : Sink) : InTurn [] sink (.ok (), sink)
  | next {action : Action Unit} {actions : List (Action Unit)} {sink middle : Sink}
      {run : Except RenderError Unit × Sink} :
      action.start sink = (.ok (), middle) → sink.GainsElement middle →
      InTurn actions middle run → InTurn (action :: actions) sink run
  | stop {action : Action Unit} {sink after : Sink} {error : RenderError}
      (actions : List (Action Unit)) :
      action.start sink = (.error error, after) → sink.Gains after →
      InTurn (action :: actions) sink (.error error, after)

theorem InTurn.unique {actions : List (Action Unit)} {sink : Sink}
    {run other : Except RenderError Unit × Sink} (first : InTurn actions sink run)
    (second : InTurn actions sink other) : run = other := by
  induction first with
  | done sink =>
    cases second
    rfl
  | next started gains more ih =>
    cases second with
    | next again _ others =>
      rw [started] at again
      cases again
      exact ih others
    | stop _ again =>
      rw [started] at again
      cases again
  | stop actions started gains =>
    cases second with
    | next again =>
      rw [started] at again
      cases again
    | stop _ again =>
      rw [started] at again
      cases again
      rfl

/-- A round of a repetition adds one element to every sink, or a part and fails. -/
structure IsRound (action : Action Unit) : Prop where
  element : ∀ sink after, action.start sink = (.ok (), after) → sink.GainsElement after
  part : ∀ sink error after, action.start sink = (.error error, after) → sink.Gains after

theorem inTurn_forM {actions : List (Action Unit)} (rounds : ∀ action ∈ actions, IsRound action)
    (sink : Sink) : InTurn actions sink ((actions.forM fun action => action).start sink) := by
  induction actions generalizing sink with
  | nil => exact .done sink
  | cons action actions ih =>
    obtain ⟨first, others⟩ := List.forall_mem_cons.mp rounds
    show InTurn _ sink ((action >>= fun _ => actions.forM fun action => action).start sink)
    rw [start_bind]
    cases started : action.start sink with
    | mk result after =>
      cases result with
      | ok _ => exact .next started (first.element sink after started) (ih others after)
      | error error => exact .stop _ started (first.part sink error after started)

/-! ## What a round writes -/

theorem Sink.gains_add (sink : Sink) (text : String) : sink.Gains (sink.add text).1 := by
  obtain ⟨before, _ | room⟩ := sink
  · exact ⟨text, rfl⟩
  · by_cases fits : text.length ≤ room
    · exact ⟨text, by simp [add, fits]⟩
    · exact ⟨_, by simp [add, fits]; rfl⟩

theorem Sink.text_add {sink after : Sink} {text : String} (taken : sink.add text = (after, true)) :
    after.text = sink.text ++ text := by
  obtain ⟨before, _ | room⟩ := sink
  · cases taken
    rfl
  · by_cases fits : text.length ≤ room
    · simp only [add, fits, if_true] at taken
      cases taken
      rfl
    · simp [add, fits] at taken

/-- An action that streams and fails has added a part of its text. -/
theorem Streams.gains {action : Action Unit} (streams : Streams action) (sink : Sink) :
    sink.Gains (action.start sink).2 := by
  have kept := sink.gains_add (outcome action).2
  rw [streams.start_eq, Sink.receive]
  cases taken : sink.add (outcome action).2 with
  | mk after whole =>
    rw [taken] at kept
    cases whole <;> exact kept

/-- An action that streams and succeeds has added its text. -/
theorem Streams.text_of_ok {action : Action Unit} (streams : Streams action) {sink after : Sink}
    (done : action.start sink = (.ok (), after)) :
    (outcome action).1 = .ok () ∧ after.text = sink.text ++ (outcome action).2 := by
  rw [streams.start_eq, Sink.receive] at done
  cases taken : sink.add (outcome action).2 with
  | mk filled whole =>
    rw [taken] at done
    cases whole with
    | true =>
      obtain ⟨result, rfl⟩ := Prod.mk.inj done
      exact ⟨result, Sink.text_add taken⟩
    | false => simp at done

theorem renderEntry_eq_emit (head : Head) (children : List Node) (key value : Object) :
    renderEntry head children key value = emit head key (renderAll children value) :=
  (emit_eq head key (renderAll children value)).symm

/-- The element for one object is an entry whose key and value are this object. -/
theorem renderOnce_eq_renderEntry (head : Head) (children : List Node) (item : Object) :
    renderOnce head children item = renderEntry head children item item :=
  (renderEntry_eq_emit head children item item).symm

theorem isRound_renderEntry (head : Head) (children : List Node) (key value : Object) :
    IsRound (renderEntry head children key value) := by
  have writes := writes_emit head key (writes_renderAll children value)
  rw [← renderEntry_eq_emit] at writes
  refine ⟨fun sink after done => ?_, fun sink error after fails => ?_⟩
  · obtain ⟨result, text⟩ := writes.streams.text_of_ok done
    rw [writes.result] at result
    cases grown : elementOf head key (treesAll children value) with
    | error error => simp [grown, Except.map] at result
    | ok forest =>
      obtain ⟨tag, -, found⟩ := Result.bind_eq_ok.mp grown
      obtain ⟨attributes, -, found⟩ := Result.bind_eq_ok.mp found
      obtain ⟨inner, -, found⟩ := Result.bind_eq_ok.mp found
      cases found
      rw [writes.text _ (by rw [grown]; rfl)] at text
      exact ⟨tag, attributes, inner, by simpa [Xml.spellAll] using text⟩
  · have gains := writes.streams.gains sink
    rwa [fails] at gains

theorem isRound_renderOnce (head : Head) (children : List Node) (item : Object) :
    IsRound (renderOnce head children item) :=
  renderOnce_eq_renderEntry head children item ▸ isRound_renderEntry head children item item

theorem isRound_throw (error : RenderError) : IsRound (throw error) where
  element sink after done := by cases done
  part sink other after fails := by
    cases fails
    exact ⟨"", by simp⟩

theorem isRound_renderPair (head : Head) (children : List Node) (source : Expr) (item : Object) :
    IsRound (renderPair head children source item) := by
  unfold renderPair
  split
  · exact isRound_renderEntry head children _ _
  · exact isRound_throw _

/-! ## Unfolding -/

theorem forM_eq_map {α : Type} (items : List α) (action : α → Action Unit) :
    items.forM action = (items.map action).forM fun action => action := by
  simp [List.forM_map]

theorem renderPair_eq (head : Head) (children : List Node) (source : Expr) (item : Object) :
    renderPair head children source item =
      match components? item with
      | some (key, value) => emit head key (renderAll children value)
      | none => throw (unrepeatable source "~" .notPairs) := by
  unfold renderPair components?
  cases item.capabilities.sequence with
  | false => rfl
  | true =>
    cases item.item? 0 with
    | none => rfl
    | some key =>
      cases item.item? 1 with
      | none => rfl
      | some value => exact renderEntry_eq_emit head children key value

variable {head : Head} {children : List Node} {object : Object} {repetition : Repetition}
  {actions : List (Action Unit)}

theorem Unfolds.isRound (unfolds : Unfolds head children object repetition actions) :
    ∀ action ∈ actions, IsRound action := by
  cases unfolds with
  | times count | count =>
    exact List.forall_mem_map.mpr fun n _ => isRound_renderOnce head children (.ofNat n)
  | items =>
    exact List.forall_mem_map.mpr fun item _ => isRound_renderOnce head children item
  | pairs =>
    exact List.forall_mem_map.mpr fun entry _ => isRound_renderOnce head children _
  | entries =>
    exact List.forall_mem_map.mpr fun entry _ => isRound_renderEntry head children entry.1 entry.2
  | entriesOfItems =>
    exact List.forall_mem_map.mpr fun item _ => isRound_renderPair head children _ item

/-- The loop of a repeated element is the sequence of its rounds. -/
theorem Unfolds.render_eq (unfolds : Unfolds head children object repetition actions) :
    render (.element (head.repeated repetition) children) object =
      actions.forM fun action => action := by
  show forEach (some repetition) object (fun key value => emit head key (renderAll children value)) = _
  cases unfolds with
  | times count =>
    rw [← forM_eq_map, List.range_eq_range', ← countUp_eq_forM]
    rfl
  | items resolved sequence =>
    rw [← forM_eq_map]
    simp only [forEach, find, resolved, pure_bind, forItems, sequence, if_true]
    rfl
  | pairs resolved sequence pairs =>
    rw [← forM_eq_map]
    simp only [forEach, find, resolved, pure_bind, forItems, sequence, pairs, if_true]
    rfl
  | count resolved sequence pairs counted =>
    rw [← forM_eq_map, List.range_eq_range', ← countUp_eq_forM]
    simp only [forEach, find, resolved, pure_bind, forItems, sequence, pairs, counted]
    rfl
  | entries resolved pairs =>
    rw [← forM_eq_map]
    simp only [forEach, find, resolved, pure_bind, forEntries, pairs, if_true,
      renderEntry_eq_emit]
  | entriesOfItems resolved pairs sequence =>
    rw [← forM_eq_map, funext (renderPair_eq head children _)]
    simp only [forEach, find, resolved, pure_bind, forEntries, pairs, sequence, if_true]
    rfl

/-- A repeated element runs the rounds that its repetition unfolds to, one after another and up to the
first that fails, and each round adds one element. Repetitions that unfold to the same rounds do the
same: a count in the format does what the same count in the host data does. -/
theorem render_unfolds (unfolds : Unfolds head children object repetition actions) :
    (∀ sink run, InTurn actions sink run ↔
      (render (.element (head.repeated repetition) children) object).start sink = run) ∧
      ∀ other, Unfolds head children object other actions →
        render (.element (head.repeated other) children) object =
          render (.element (head.repeated repetition) children) object := by
  refine ⟨fun sink run => ?_, fun other same => same.render_eq.trans unfolds.render_eq.symm⟩
  have turns := inTurn_forM unfolds.isRound sink
  rw [unfolds.render_eq]
  constructor
  · exact fun other => turns.unique other
  · rintro rfl
    exact turns

/-- Entries whose values are repeated again, and an item that is no pair after the first entry. -/
theorem render_unfolds_not_pairs :
    let head : Head := ⟨.current, none, [⟨.literal "n", .current⟩]⟩
    let children : List Node := [.element ⟨.literal "i", some (.items .current), []⟩ [.value .current]]
    let entry := Object.pair (.plain "a") (.sequence [.plain "1", .plain "<"] "")
    let object := Object.sequence [entry, .plain "b", entry] ""
    let rounds := [entry, .plain "b", entry].map (renderPair head children .current)
    let run : Except RenderError Unit × Sink := (.error (.lookup ⟨"?", "~", .notPairs⟩),
      .unbounded "x<a n=\"a\"><i>1</i><i>&lt;</i></a>")
    Unfolds head children object (.entries .current) rounds ∧
      (render (.element (head.repeated (.entries .current)) children) object).start (.unbounded "x") =
        run ∧
      InTurn rounds (.unbounded "x") run := by
  intro head children entry object rounds run
  have resolved : resolve .current object = .ok object := rfl
  have unfolds : Unfolds head children object (.entries .current) rounds :=
    .entriesOfItems resolved rfl rfl
  have started : (render (.element (head.repeated (.entries .current)) children) object).start
      (.unbounded "x") = run := by rfl
  exact ⟨unfolds, started, ((render_unfolds unfolds).1 (.unbounded "x") run).mpr started⟩

end Render

end XmlTemplate
