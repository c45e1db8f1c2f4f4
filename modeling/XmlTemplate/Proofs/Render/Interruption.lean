import XmlTemplate.Proofs.Render.Unfolding
import XmlTemplate.Proofs.Xml.Beginning

/-!
# Interrupted rendering

Rendering may fail anywhere: between attributes, inside elements, between the rounds of repetitions,
and in the middle of a piece that a sink does not take as a whole. Wherever that is, what was
written is the beginning of trees with names, so it can be completed. A name that is no tag is
refused before anything of its element is written.

Results:
1. `opensTag_openTag`, `emits_emit`: where writing a start tag or an element may stop.
2. `grows_render`, `grows_renderAll`: nodes write the spelling of their trees, or stop inside of it.
3. `Grows.begins`: what an action leaves in any sink when it fails.
4. `renderTo_interrupted`: what a template leaves in a sink when it fails.
-/

namespace XmlTemplate.Render

open Result (bind_eq_ok)
open Xml (AllNamed Begins Opens Start Tree checkWellFormed readFragment spellAll spellAttribute
  spellAttributes startTag startsAll)

/-! ## Failures -/

/-- A name was refused as a tag. -/
def RenderError.RefusesTag (error : RenderError) : Prop :=
  ∃ name cause, error = .invalidName .tag name cause

/-- A text that a failure leaves is cut off in the spelling of trees with names. If a tag was
refused, the cut is outside of tags. -/
def Interrupted (error : RenderError) (text : String) : Prop :=
  ∃ forest, AllNamed forest ∧ (∃ rest, text ++ rest = spellAll forest) ∧
    (error.RefusesTag → Opens text forest)

variable {error : RenderError} {text : String}

theorem interrupted_empty (error : RenderError) : Interrupted error "" :=
  ⟨[], Xml.allNamed_nil, ⟨"", rfl⟩, fun _ => .nothing⟩

theorem Interrupted.after {trees : List Tree} (named : AllNamed trees)
    (interrupted : Interrupted error text) : Interrupted error (spellAll trees ++ text) := by
  obtain ⟨forest, others, ⟨rest, whole⟩, opens⟩ := interrupted
  refine ⟨trees ++ forest, Xml.allNamed_append.mpr ⟨named, others⟩, ⟨rest, ?_⟩,
    fun refused => (opens refused).afterAll trees⟩
  rw [String.append_assoc, whole, Xml.spellAll_append]

theorem Interrupted.inside {start : Start} (named : start.Named)
    (interrupted : Interrupted error text) :
    Interrupted error (startTag start.tag start.attributes ++ text) := by
  obtain ⟨forest, others, ⟨rest, whole⟩, opens⟩ := interrupted
  refine ⟨[.element start.tag start.attributes forest], Xml.allNamed_element.mpr ⟨named, others⟩,
    ⟨rest ++ Xml.endTag start.tag, ?_⟩, fun refused => .inside _ _ (opens refused)⟩
  simp [spellAll, Tree.spell, ← whole, String.append_assoc]

/-- The cut is after an attribute, or after the name of a start tag that has none. -/
theorem interrupted_startTag {start : Start} (named : start.Named) (other : ¬ error.RefusesTag) :
    Interrupted error ("<" ++ start.tag ++ spellAttributes start.attributes) :=
  ⟨[.element start.tag start.attributes []], Xml.allNamed_element.mpr ⟨named, Xml.allNamed_nil⟩,
    (Xml.begins_startTag _ _).completed, fun refused => absurd refused other⟩

/-! ## Start tags -/

theorem outcome_write (piece : String) : outcome (write piece) = (.ok (), piece) :=
  outcome_eq_of_start
    (congrArg (fun text => (Except.ok (), Sink.unbounded text)) String.empty_append)

theorem not_refusesTag_lookup (error : LookupError) : ¬ RenderError.RefusesTag (.lookup error) := by
  rintro ⟨name, cause, same⟩
  cases same

theorem not_refusesTag_of_nameOf {name : Expr} {object : Object}
    (fails : nameOf .attribute name object = .error error) : ¬ error.RefusesTag := by
  rintro ⟨text, cause, rfl⟩
  unfold nameOf at fails
  split at fails
  · cases fails
  · split at fails <;> cases fails

/-- The action writes these attributes, and whether it fails or not it refuses no tag. -/
structure WritesAttributes (action : Action Unit) (items : List (String × String)) : Prop where
  streams : Streams action
  text : (outcome action).2 = spellAttributes items
  named : ∀ item ∈ items, Xml.checkAttribute item.1 = .ok ()
  refuses : ∀ error, (outcome action).1 = .error error → ¬ error.RefusesTag

namespace WritesAttributes

theorem pure : WritesAttributes (pure ()) [] where
  streams := .pure ()
  text := rfl
  named := List.forall_mem_nil _
  refuses := by
    intro error fails
    cases fails

theorem throw (other : error ≠ .write) (fine : ¬ error.RefusesTag) :
    WritesAttributes (throw error) [] where
  streams := .throw other
  text := rfl
  named := List.forall_mem_nil _
  refuses := by
    rintro _ ⟨⟩
    exact fine

theorem write {name : String} (named : Xml.checkAttribute name = .ok ()) (value : String) :
    WritesAttributes (write (spellAttribute (name, value))) [(name, value)] where
  streams := .write _
  text := by rw [outcome_write, spellAttributes, spellAttributes, String.append_empty]
  named := List.forall_mem_singleton.mpr named
  refuses := by
    intro error fails
    rw [outcome_write] at fails
    cases fails

/-- The second action goes on after the attributes of the first one, unless that fails. -/
theorem bind {first second : Action Unit} {front back : List (String × String)}
    (one : WritesAttributes first front) (two : WritesAttributes second back) :
    ∃ items, WritesAttributes (first >>= fun _ => second) items := by
  have streams := one.streams.bind fun _ => two.streams
  cases result : (outcome first).1 with
  | error error =>
    have whole := outcome_bind_error one.streams result fun _ => second
    refine ⟨front, streams, by rw [whole, one.text], one.named, ?_⟩
    rw [whole]
    rintro _ ⟨⟩
    exact one.refuses error result
  | ok done =>
    have whole := outcome_bind_ok one.streams result (fun _ => second) two.streams
    refine ⟨front ++ back, streams, ?_, List.forall_mem_append.mpr ⟨one.named, two.named⟩, ?_⟩
    · rw [whole, one.text, two.text, Xml.spellAttributes_append]
    · rw [whole]
      exact two.refuses

end WritesAttributes

theorem exists_writesAttributes_emitAttribute (item : Attribute) (object : Object) :
    ∃ items, WritesAttributes (emitAttribute item object) items := by
  unfold emitAttribute
  rw [attributeName_eq]
  cases named : nameOf .attribute item.name object with
  | error error =>
    exact ⟨[], .throw (nameOf_error_ne_write named) (not_refusesTag_of_nameOf named)⟩
  | ok name =>
    rw [pure_bind, find_eq]
    cases resolve item.value object with
    | error error => exact ⟨[], .throw (by simp) (not_refusesTag_lookup error)⟩
    | ok found => exact ⟨[(name, found.text)], .write (check_of_nameOf named) found.text⟩

/-- Attributes are written in order up to the first that fails. -/
theorem exists_writesAttributes (items : List Attribute) (object : Object) :
    ∃ written, WritesAttributes (items.forM fun item => emitAttribute item object) written := by
  induction items with
  | nil => exact ⟨[], .pure⟩
  | cons item items ih =>
    obtain ⟨first, one⟩ := exists_writesAttributes_emitAttribute item object
    obtain ⟨others, rest⟩ := ih
    exact one.bind rest

/-- What writing a start tag comes to: nothing for a refused name, a part without the closing
bracket if an attribute fails, or all of it. -/
inductive OpensTag (head : Head) (object : Object) : Except RenderError String × String → Prop
  | refused {error : RenderError} : nameOf .tag head.name object = .error error →
      OpensTag head object (.error error, "")
  | cut {error : RenderError} {start : Start} : start.Named → ¬ error.RefusesTag →
      OpensTag head object (.error error, "<" ++ start.tag ++ spellAttributes start.attributes)
  | whole {start : Start} : start.Named →
      OpensTag head object (.ok start.tag, startTag start.tag start.attributes)

theorem streams_openTag (head : Head) (object : Object) : Streams (openTag head object) :=
  (streams_tagName head.name object).bind fun tag =>
    (Streams.write ("<" ++ tag)).bind fun _ =>
      (Streams.forM fun item _ => streams_emitAttribute item object).bind fun _ =>
        (Streams.write ">").bind fun _ => .pure tag

theorem opensTag_openTag (head : Head) (object : Object) :
    OpensTag head object (outcome (openTag head object)) := by
  unfold openTag
  rw [tagName_eq]
  cases named : nameOf .tag head.name object with
  | error error => exact .refused named
  | ok tag =>
    rw [pure_bind]
    obtain ⟨items, written⟩ := exists_writesAttributes head.attributes object
    have fine : Start.Named ⟨tag, items⟩ := ⟨check_of_nameOf named, written.named⟩
    let close : Action String := do
      write ">"
      return tag
    have closed : outcome close = (.ok tag, ">") := rfl
    have closes : Streams close := (Streams.write ">").bind fun _ => .pure tag
    have name : (outcome (write ("<" ++ tag))).1 = .ok () := rfl
    rw [outcome_bind_ok (.write _) name _ (written.streams.bind fun _ => closes), outcome_write]
    cases result : (outcome (head.attributes.forM fun item => emitAttribute item object)).1 with
    | error error =>
      rw [outcome_bind_error written.streams result, written.text]
      exact .cut fine (written.refuses error result)
    | ok done =>
      rw [outcome_bind_ok written.streams result _ closes, written.text, closed,
        ← String.append_assoc]
      exact .whole fine

/-! ## Elements -/

/-- What writing an element comes to, for what its body comes to: what a start tag comes to if that
fails, the start tag and what the body wrote if the body fails, or all of it. -/
inductive Emits (head : Head) (object : Object) (body : Except RenderError Unit × String) :
    Except RenderError Unit × String → Prop
  | refused {error : RenderError} : nameOf .tag head.name object = .error error →
      Emits head object body (.error error, "")
  | cut {error : RenderError} {start : Start} : start.Named → ¬ error.RefusesTag →
      Emits head object body (.error error, "<" ++ start.tag ++ spellAttributes start.attributes)
  | inside {error : RenderError} {start : Start} : start.Named → body.1 = .error error →
      Emits head object body (.error error, startTag start.tag start.attributes ++ body.2)
  | whole {start : Start} : start.Named → body.1 = .ok () →
      Emits head object body
        (.ok (), startTag start.tag start.attributes ++ body.2 ++ Xml.endTag start.tag)

theorem emits_emit (head : Head) (object : Object) {body : Action Unit} (inner : Streams body) :
    Emits head object (outcome body) (outcome (emit head object body)) := by
  let close (tag : String) : Action Unit := body >>= fun _ => write ("</" ++ tag ++ ">")
  have closes (tag : String) : Streams (close tag) := inner.bind fun _ => .write _
  have opened := opensTag_openTag head object
  have streams := streams_openTag head object
  rw [emit_eq]
  generalize run : outcome (openTag head object) = start at opened
  cases opened with
  | @refused error rejected =>
    have stopped : (outcome (openTag head object)).1 = .error error := by rw [run]
    rw [outcome_bind_error streams stopped, run]
    exact .refused rejected
  | @cut error start named other =>
    have stopped : (outcome (openTag head object)).1 = .error error := by rw [run]
    rw [outcome_bind_error streams stopped, run]
    exact .cut named other
  | @whole start named =>
    have reached : (outcome (openTag head object)).1 = .ok start.tag := by rw [run]
    rw [outcome_bind_ok streams reached close (closes start.tag), run]
    cases result : (outcome body).1 with
    | error error =>
      rw [outcome_bind_error inner result]
      exact .inside named result
    | ok done =>
      have rest : outcome (close start.tag) = (.ok (), (outcome body).2 ++ Xml.endTag start.tag) := by
        rw [outcome_bind_ok inner result _ (.write _), outcome_write]
        rfl
      rw [rest, ← String.append_assoc]
      exact .whole named result

/-! ## Nodes -/

/-- The action writes the spelling of the trees, whose names are fine, or it fails inside of the
spelling of such trees. -/
structure Grows (action : Action Unit) (grown : Except RenderError (List Tree)) : Prop where
  writes : Writes action (grown.map spellAll)
  named : ∀ forest, grown = .ok forest → AllNamed forest
  interrupted : ∀ error, grown = .error error → Interrupted error (outcome action).2

namespace Grows

variable {action first second : Action Unit} {grown front back : Except RenderError (List Tree)}

theorem result_of_error (grows : Grows action grown) (fails : grown = .error error) :
    (outcome action).1 = .error error := by
  rw [grows.writes.result, fails]
  rfl

theorem outcome_of_ok (grows : Grows action grown) {forest : List Tree}
    (found : grown = .ok forest) : outcome action = (.ok (), spellAll forest) := by
  have text : (outcome action).2 = spellAll forest := grows.writes.text _ (by rw [found]; rfl)
  have result := grows.writes.result
  rw [found] at result
  exact Prod.ext result text

theorem ok (writes : Writes action (grown.map spellAll)) {forest : List Tree}
    (found : grown = .ok forest) (named : AllNamed forest) : Grows action grown where
  writes := writes
  named := by
    rintro _ same
    cases found.symm.trans same
    exact named
  interrupted := by
    rintro _ same
    cases found.symm.trans same

theorem throw (other : error ≠ .write) : Grows (throw error) (.error error) where
  writes := .throw other
  named := by
    intro forest found
    cases found
  interrupted := by
    rintro _ ⟨⟩
    exact interrupted_empty error

/-- The expected trees may be given in another form. -/
theorem of_eq {other : Except RenderError (List Tree)} (grows : Grows action grown)
    (same : grown = other) : Grows action other :=
  same ▸ grows

/-- After trees that are complete another action goes on. -/
theorem append (one : Grows first front) (two : Grows second back) :
    Grows (first >>= fun _ => second) (do
      let left ← front
      let right ← back
      return left ++ right) where
  writes := one.writes.append two.writes
  named := by
    intro forest found
    obtain ⟨left, leftFound, found⟩ := bind_eq_ok.mp found
    obtain ⟨right, rightFound, found⟩ := bind_eq_ok.mp found
    cases found
    exact Xml.allNamed_append.mpr ⟨one.named left leftFound, two.named right rightFound⟩
  interrupted := by
    intro error fails
    cases leftFound : front with
    | error early =>
      rw [leftFound] at fails
      cases fails
      rw [outcome_bind_error one.writes.streams (one.result_of_error leftFound)]
      exact one.interrupted error leftFound
    | ok left =>
      have run := one.outcome_of_ok leftFound
      have reached : (outcome first).1 = .ok () := by rw [run]
      cases rightFound : back with
      | ok right =>
        rw [leftFound, rightFound] at fails
        cases fails
      | error late =>
        rw [leftFound, rightFound] at fails
        cases fails
        rw [outcome_bind_ok one.writes.streams reached _ two.writes.streams, run]
        exact (two.interrupted error rightFound).after (one.named left leftFound)

/-- Whether the action fails or not, what it writes is a beginning of the spelling of such trees. -/
theorem beginning (grows : Grows action grown) :
    ∃ forest, AllNamed forest ∧ ∃ rest, (outcome action).2 ++ rest = spellAll forest := by
  cases found : grown with
  | error error =>
    obtain ⟨forest, named, beginning, -⟩ := grows.interrupted error found
    exact ⟨forest, named, beginning⟩
  | ok forest =>
    exact ⟨forest, grows.named forest found, "", by
      rw [grows.outcome_of_ok found, String.append_empty]⟩

end Grows

theorem grows_emit (head : Head) (object : Object) {body : Action Unit}
    {children : Except RenderError (List Tree)} (inner : Grows body children) :
    Grows (emit head object body) (elementOf head object children) where
  writes := writes_emit head object inner.writes
  named _ found := allNamed_elementOf inner.named found
  interrupted := by
    intro error fails
    have failing : (outcome (emit head object body)).1 = .error error := by
      rw [(writes_emit head object inner.writes).result, fails]
      rfl
    have emits := emits_emit head object inner.writes.streams
    generalize outcome (emit head object body) = result at failing emits
    cases emits with
    | refused rejected => exact interrupted_empty error
    | cut named other =>
      cases failing
      exact interrupted_startTag named other
    | inside named late =>
      cases failing
      rw [inner.writes.result] at late
      cases grown : children with
      | error error =>
        rw [grown] at late
        cases late
        exact (inner.interrupted _ grown).inside named
      | ok forest =>
        rw [grown] at late
        cases late
    | whole named done => cases failing

variable {action : Object → Object → Action Unit}
  {grown : Object → Object → Except RenderError (List Tree)}

theorem grows_gather (each : ∀ front inner, Grows (action front inner) (grown front inner))
    (objects : List (Object × Object)) :
    Grows (objects.forM fun round => action round.1 round.2) (Rounds.gather grown objects) := by
  induction objects with
  | nil => exact .ok .pure rfl Xml.allNamed_nil
  | cons round objects ih => exact (each round.1 round.2).append ih

theorem grows_run (each : ∀ front inner, Grows (action front inner) (grown front inner))
    (rounds : Rounds) : Grows (rounds.run action) (rounds.forest grown) := by
  have gathered := grows_gather each rounds.objects
  unfold Rounds.run Rounds.forest
  cases rounds.failure with
  | none =>
    have nothing : Grows (pure ()) (.ok []) := .ok .pure rfl Xml.allNamed_nil
    refine (gathered.append nothing).of_eq ?_
    cases Rounds.gather grown rounds.objects with
    | error error => rfl
    | ok forest => exact congrArg Except.ok (List.append_nil forest)
  | some error =>
    have failing : Grows (throw (.lookup error)) (.error (.lookup error)) := .throw (by simp)
    refine (gathered.append failing).of_eq ?_
    cases Rounds.gather grown rounds.objects <;> rfl

mutual
theorem grows_render (node : Node) (object : Object) :
    Grows (render node object) (trees node object) := by
  cases node with
  | element head children =>
    rw [render, forEach_eq_run, trees]
    exact grows_run (fun front inner => grows_emit head front (grows_renderAll children inner)) _
  | text text => exact .ok (writes_render (.text text) object) rfl (Xml.allNamed_text text)
  | value source =>
    have writes := writes_render (.value source) object
    rw [render, find_eq, trees, textOf] at writes ⊢
    generalize resolve source object = resolved at writes ⊢
    cases resolved with
    | error error => exact .throw (by simp)
    | ok found => exact .ok writes rfl (Xml.allNamed_text found.text)
  | scope source children =>
    rw [render, find_eq, trees]
    cases resolve source object with
    | error error => exact .throw (by simp)
    | ok found => exact grows_renderAll children found

theorem grows_renderAll (nodes : List Node) (object : Object) :
    Grows (renderAll nodes object) (treesAll nodes object) := by
  cases nodes with
  | nil => exact .ok .pure rfl Xml.allNamed_nil
  | cons node nodes => exact (grows_render node object).append (grows_renderAll nodes object)
end

/-! ## Sinks -/

variable {sink after : Sink}

theorem Sink.add_cut (cut : sink.add text = (after, false)) :
    ∃ part, after.text = sink.text ++ part ∧ ∃ rest, part ++ rest = text := by
  obtain ⟨before, _ | room⟩ := sink
  · cases cut
  · by_cases fits : text.length ≤ room
    · simp [add, fits] at cut
    · simp only [add, fits, if_false, Prod.mk.injEq, and_true] at cut
      subst cut
      refine ⟨_, rfl, String.ofList (text.toList.drop room), ?_⟩
      rw [← String.ofList_append, List.take_append_drop, String.ofList_toList]

/-- An action that fails has written all that it writes before its failure, or the sink took only a
part of what it writes. -/
theorem Streams.text_of_error {action : Action Unit} (streams : Streams action)
    (fails : action.start sink = (.error error, after)) :
    ∃ part, after.text = sink.text ++ part ∧
      (outcome action = (.error error, part) ∨
        error = .write ∧ ∃ rest, part ++ rest = (outcome action).2) := by
  rw [streams.start_eq, Sink.receive] at fails
  cases taken : sink.add (outcome action).2 with
  | mk filled whole =>
    rw [taken] at fails
    cases whole with
    | true =>
      obtain ⟨result, rfl⟩ := Prod.mk.inj fails
      exact ⟨_, Sink.text_add taken, .inl (Prod.ext result rfl)⟩
    | false =>
      cases fails
      obtain ⟨part, text, cut⟩ := Sink.add_cut taken
      exact ⟨part, text, .inr ⟨rfl, cut⟩⟩

/-- Whatever was written by an action that fails is the beginning of trees with names. -/
theorem Grows.begins {action : Action Unit} {grown : Except RenderError (List Tree)}
    (grows : Grows action grown) (fails : action.start sink = (.error error, after)) :
    ∃ written forest, after.text = sink.text ++ written ∧ AllNamed forest ∧ Begins written forest ∧
      (error.RefusesTag → Opens written forest) := by
  obtain ⟨written, text, run | ⟨rfl, more, cut⟩⟩ := grows.writes.streams.text_of_error fails
  · have failed : grown = .error error := by
      have result := grows.writes.result
      rw [run] at result
      cases grown with
      | error other => exact congrArg _ (Except.error.inj result).symm
      | ok forest => cases result
    obtain ⟨forest, named, ⟨rest, whole⟩, opens⟩ := grows.interrupted error failed
    rw [run] at whole opens
    by_cases refused : error.RefusesTag
    · exact ⟨written, forest, text, named, (opens refused).begins, opens⟩
    · obtain ⟨pruned, fine, begins⟩ := Xml.exists_begins named whole
      exact ⟨written, pruned, text, fine, begins, fun refuses => absurd refuses refused⟩
  · obtain ⟨forest, named, rest, whole⟩ := grows.beginning
    rw [← cut, String.append_assoc] at whole
    obtain ⟨pruned, fine, begins⟩ := Xml.exists_begins named whole
    refine ⟨written, pruned, text, fine, begins, ?_⟩
    rintro ⟨name, cause, same⟩
    cases same

/-! ## Templates -/

/-- When rendering into a sink fails, the text that it has added is the beginning of trees with
names, in which nothing comes after what was begun. It can be completed, and a reader of fragments
finds these trees in what it is completed to, which is well formed unless a start tag has an
attribute name twice. If a tag was refused, no tag is cut off; an element whose tag is refused adds
nothing to any sink. -/
theorem renderTo_interrupted {template : Template} {root : Object} {sink after : Sink}
    {error : RenderError} (fails : template.renderTo root sink = (.error error, after)) :
    (∃ written rest forest, after.text = sink.text ++ written ∧ written ++ rest = spellAll forest ∧
      Begins written forest ∧ AllNamed forest ∧
      readFragment (written ++ rest) = some (Xml.merge forest) ∧
      ((∀ start ∈ startsAll forest, start.Distinct) →
        checkWellFormed (written ++ rest) = .ok (startsAll forest).length) ∧
      (∀ fault, checkWellFormed (written ++ rest) = .error fault →
        ∃ offset first, fault = .attributes (.duplicated offset first)) ∧
      (error.RefusesTag → Opens written forest)) ∧
    ∀ head object found cause body sink,
      resolve head.name object = .ok found → Xml.checkTag found.text = .error cause →
      (emit head object body).start sink = (.error (.invalidName .tag found.text cause), sink) := by
  have grows := grows_renderAll template.nodes root
  obtain ⟨written, forest, text, named, begins, opens⟩ := grows.begins fails
  obtain ⟨rest, whole⟩ := begins.completed
  refine ⟨⟨written, rest, forest, text, whole, begins, named, ?_, ?_, ?_, opens⟩, ?_⟩
  · rw [whole]
    exact Xml.readFragment_spellAll (Xml.allPlain_of_allNamed named)
  · intro distinct
    rw [whole]
    exact Xml.checkWellFormed_of_distinct named distinct
  · intro fault refused
    rw [whole] at refused
    exact Xml.duplicated_of_checkWellFormed_error named refused
  · intro head object found cause body sink resolved checked
    have rejected : nameOf .tag head.name object = .error (.invalidName .tag found.text cause) := by
      unfold nameOf
      simp [resolved, NameKind.check, checked]
    unfold emit
    rw [tagName_eq, rejected]
    rfl

/-- A repeated element whose tags are the items of a sequence. An item that is no tag is refused
after the first element, and a sink with little room is full inside the character data of that
element. -/
theorem renderTo_interrupted_by_items :
    let template : Template :=
      ⟨[.element ⟨.literal "t", none, []⟩
        [.element ⟨.current, some (.items .current), [⟨.literal "k", .current⟩]⟩ [.text "<&"]]]⟩
    let root := Object.sequence [.plain "a", .plain "b c"] ""
    let refused := RenderError.invalidName .tag "b c" (.badChar ' ')
    let whole := Sink.unbounded "x<t><a k=\"a\">&lt;&amp;</a>"
    let cut : Sink := ⟨"x<t><a k=\"a\">&lt;&a", some 0⟩
    (template.renderTo root (.unbounded "x") = (.error refused, whole) ∧
      ∃ written rest forest, whole.text = "x" ++ written ∧ Opens written forest ∧
        readFragment (written ++ rest) = some (Xml.merge forest)) ∧
    template.renderTo root ⟨"x", some 18⟩ = (.error .write, cut) ∧
      ∃ written rest forest, cut.text = "x" ++ written ∧ Begins written forest ∧
        readFragment (written ++ rest) = some (Xml.merge forest) := by
  intro template root refused whole cut
  have fails : template.renderTo root (.unbounded "x") = (.error refused, whole) := by rfl
  have fills : template.renderTo root ⟨"x", some 18⟩ = (.error .write, cut) := by rfl
  obtain ⟨⟨written, rest, forest, text, -, -, -, read, -, -, opens⟩, -⟩ :=
    renderTo_interrupted fails
  obtain ⟨⟨part, more, trees, begun, -, begins, -, reread, -⟩, -⟩ := renderTo_interrupted fills
  exact ⟨⟨fails, written, rest, forest, text, opens ⟨_, _, rfl⟩, read⟩,
    fills, part, more, trees, begun, begins, reread⟩

/-- A start tag that has an attribute name twice is written before a value in its element fails.
Nothing completes this text to a well-formed one. -/
theorem renderTo_repeated_name :
    let template : Template :=
      ⟨[.element ⟨.literal "a", none, [⟨.literal "b", .literal "1"⟩, ⟨.literal "b", .literal "2"⟩]⟩
        [.value (.chain .current [.key "x"])]]⟩
    let written := "<a b=\"1\" b=\"2\">"
    template.renderTo (.plain "h") (.unbounded "") =
        (.error (.lookup ⟨"?", "x", .noAccess⟩), .unbounded written) ∧
      ∀ rest, ¬ ∃ count, checkWellFormed (written ++ rest) = .ok count := by
  intro template written
  have named : Start.Named ⟨"a", [("b", "1"), ("b", "2")]⟩ :=
    ⟨rfl, List.forall_mem_cons.mpr ⟨rfl, List.forall_mem_singleton.mpr rfl⟩⟩
  have spelled : startTag "a" [("b", "1"), ("b", "2")] = written := rfl
  have fails : template.renderTo (.plain "h") (.unbounded "") =
      (.error (.lookup ⟨"?", "x", .noAccess⟩), .unbounded written) := rfl
  refine ⟨fails, fun rest => ?_⟩
  have refused := Xml.not_checkWellFormed_startTag named (by decide) rest
  rwa [spelled] at refused

end XmlTemplate.Render
