import XmlTemplate.Proofs.Render.Interruption

/-!
# Names that are written

Rendering is a row of steps: names fall due, pieces are written, and expressions may not resolve.
Each name falls due right before the piece that has it, and it is checked there. So the first name
that is not safe ends rendering, and what a sink has by then are the pieces before it.

White space is never part of a name, but for U+1680: it is a space mark in Unicode and a letter in
the production Name of XML 1.0.

Results:
1. `safeName_of_checkName`, `safeTag_of_checkTag`: names that pass their check are safe.
2. `render_eq_run`, `renderAll_eq_run`: rendering runs the steps of its nodes.
3. `start_run_of_refused`: a run ends with the first name that is refused.
4. `renderTo_names`: the names in a sink are safe, and a name that is not safe is an error.
-/

namespace XmlTemplate

/-! ## Safe names -/

namespace Xml

/-- The characters that delimit tags, attributes and their values. -/
def delimiters : List Char := ['<', '>', '&', '\x22', '\x27', '=', '/']

/-- A name that cannot be taken for anything else in a tag. -/
structure SafeName (name : String) : Prop where
  nonempty : name ≠ ""
  undelimited : ∀ c ∈ name.toList, c ∉ delimiters
  dense : ∀ c ∈ name.toList, Text.isBlank c = true → c = '\u1680'

/-- A name of an element does not start with `xml` in any case either. -/
structure SafeTag (name : String) : Prop extends SafeName name where
  unreserved : (name.toList.take 3).map Char.toLower ≠ ['x', 'm', 'l']

theorem not_mem_delimiters {c : Char} (allowed : isNameChar c = true) : c ∉ delimiters := by
  intro mem
  simp only [delimiters, List.mem_cons, List.not_mem_nil, or_false] at mem
  rcases mem with rfl | rfl | rfl | rfl | rfl | rfl | rfl <;> revert allowed <;> decide

/-- The tables of white space and of names share one code point. -/
theorem eq_of_isBlank {c : Char} (allowed : isNameChar c = true) (blank : Text.isBlank c = true) :
    c = '\u1680' := by
  rw [isNameChar, ← Text.Ranges.contains_append] at allowed
  have code : c.toNat = 0x1680 := by
    simp only [Text.isBlank, Text.blanks, nameStarts, nameExtras, Text.Ranges.contains,
      List.cons_append, List.nil_append, List.any_cons, List.any_nil, Bool.or_false,
      Bool.or_eq_true, Bool.and_eq_true, decide_eq_true_eq] at allowed blank
    omega
  exact Char.toNat_inj.mp code

theorem safeName_of_checkName {name : String} (passes : checkName name = .ok ()) :
    SafeName name := by
  obtain ⟨first, rest, spelled, starts, follow⟩ := checkName_eq_ok_iff.mp passes
  have allowed : ∀ c ∈ name.toList, isNameChar c = true := by
    rw [spelled]
    exact List.forall_mem_cons.mpr ⟨isNameChar_of_isNameStart starts, follow⟩
  refine ⟨?_, fun c mem => not_mem_delimiters (allowed c mem),
    fun c mem => eq_of_isBlank (allowed c mem)⟩
  rintro rfl
  cases spelled

/-- A letter in lower case is the character itself, or 32 code points after a capital letter. -/
theorem eq_or_of_toLower_eq {c d : Char} (same : c.toLower = d) :
    c = d ∨ c.toNat + 32 = d.toNat := by
  unfold Char.toLower at same
  split at same
  · next capital =>
    have last : c.toNat ≤ 90 := UInt32.le_iff_toNat_le.mp capital.2
    rw [← same]
    refine .inr (Eq.symm ((UInt32.toNat_add c.val 32).trans (Nat.mod_eq_of_lt ?_)))
    show c.toNat + 32 < _
    omega
  · exact .inl same

theorem isReserved_of_toLower {chars : List Char}
    (same : (chars.take 3).map Char.toLower = ['x', 'm', 'l']) : isReserved chars = true := by
  have either {c d : Char} (capital : Char) (lower : c.toLower = d)
      (letter : capital.toNat + 32 = d.toNat) : c = d ∨ c = capital :=
    (eq_or_of_toLower_eq lower).imp_right fun shifted => Char.toNat_inj.mp (by omega)
  match chars with
  | [] | [_] | [_, _] => simp at same
  | x :: m :: l :: _ =>
    simp only [List.take_succ_cons, List.take_zero, List.map_cons, List.map_nil, List.cons.injEq,
      and_true] at same
    simp only [isReserved, Bool.and_eq_true, Bool.or_eq_true, beq_iff_eq]
    exact ⟨⟨either 'X' same.1 rfl, either 'M' same.2.1 rfl⟩, either 'L' same.2.2 rfl⟩

theorem safeTag_of_checkTag {name : String} (passes : checkTag name = .ok ()) : SafeTag name := by
  refine ⟨safeName_of_checkName (checkName_of_checkTag passes), fun same => ?_⟩
  rw [checkTag, checkName_of_checkTag passes, isReserved_of_toLower same] at passes
  cases passes

theorem begins_spellAll (forest : List Tree) : Begins (spellAll forest) forest := by
  induction forest with
  | nil => exact .nothing
  | cons tree trees ih => exact .after tree ih

end Xml

namespace Render

open Xml (AllNamed Begins Start Tree endTag escapeText readFragment spellAll spellAttribute
  startsAll)

/-- What a name of a kind has to be for it to be written. -/
def NameKind.Safe : NameKind → String → Prop
  | .tag, name => Xml.SafeTag name
  | .attribute, name => Xml.SafeName name

theorem NameKind.safe_of_check {kind : NameKind} {name : String}
    (passes : kind.check name = .ok ()) : kind.Safe name := by
  match kind with
  | .tag => exact Xml.safeTag_of_checkTag passes
  | .attribute => exact Xml.safeName_of_checkName passes

/-! ## Steps -/

/-- What rendering does next. -/
inductive Step where
  /-- A name falls due, before the piece that has it. -/
  | due (kind : NameKind) (name : String)
  | write (piece : String)
  /-- An expression does not resolve, or a repetition ends with an error. No later step is reached. -/
  | fail (error : LookupError)

/-- The steps for the object that an expression gives. -/
def resolving (source : Expr) (object : Object) (next : Object → List Step) : List Step :=
  match resolve source object with
  | .ok found => next found
  | .error error => [.fail error]

/-- The steps for the name that an expression gives: it falls due before all others. -/
def naming (kind : NameKind) (source : Expr) (object : Object) (next : String → List Step) :
    List Step :=
  resolving source object fun found => .due kind found.text :: next found.text

/-- The steps of an attribute. -/
def attributeSteps (object : Object) (item : Attribute) : List Step :=
  naming .attribute item.name object fun name =>
    resolving item.value object fun value => [.write (spellAttribute (name, value.text))]

/-- The steps of one element. -/
def elementSteps (head : Head) (object : Object) (body : List Step) : List Step :=
  naming .tag head.name object fun tag =>
    .write ("<" ++ tag) :: head.attributes.flatMap (attributeSteps object) ++
      .write ">" :: body ++ [.write (endTag tag)]

/-- The steps of all rounds, and the error that ends them. -/
def Rounds.steps (rounds : Rounds) (each : Object → Object → List Step) : List Step :=
  rounds.objects.flatMap (fun round => each round.1 round.2) ++
    (rounds.failure.map Step.fail).toList

mutual
/-- The steps of a node, whatever names it gives. -/
def steps : Node → Object → List Step
  | .element head children, object =>
    (rounds head.repetition object).steps fun front inner =>
      elementSteps head front (stepsAll children inner)
  | .text text, _ => [.write (escapeText text)]
  | .value source, object => resolving source object fun found => [.write (escapeText found.text)]
  | .scope source children, object => resolving source object fun found => stepsAll children found

/-- The steps of nodes in order. -/
def stepsAll : List Node → Object → List Step
  | [], _ => []
  | node :: nodes, object => steps node object ++ stepsAll nodes object
end

/-! ## Running steps -/

/-- A name that falls due is checked, and a piece is written. -/
def Step.run : Step → Action Unit
  | .due kind name =>
    match kind.check name with
    | .ok () => pure ()
    | .error cause => throw (.invalidName kind name cause)
  | .write piece => Render.write piece
  | .fail error => throw (.lookup error)

/-- Steps are run in order, up to the first that fails. -/
def run (steps : List Step) : Action Unit := steps.forM Step.run

@[simp] theorem run_nil : run [] = pure () := rfl

@[simp] theorem run_cons (step : Step) (steps : List Step) :
    run (step :: steps) = (do step.run; run steps : Action Unit) := rfl

@[simp] theorem run_append (front back : List Step) :
    run (front ++ back) = (do run front; run back : Action Unit) := by
  induction front with
  | nil => simp
  | cons step steps ih => simp [ih]

theorem run_flatMap {α : Type} (items : List α) (each : α → List Step) :
    run (items.flatMap each) = items.forM fun item => run (each item) := by
  induction items with
  | nil => rfl
  | cons item items ih =>
    rw [List.flatMap_cons, run_append, ih]
    rfl

theorem run_resolving (source : Expr) (object : Object) (next : Object → List Step) :
    run (resolving source object next) = (do
      let found ← find source object
      run (next found)) := by
  rw [resolving, find_eq]
  cases resolve source object with
  | error error => simp [Step.run]
  | ok found => simp

theorem run_naming (kind : NameKind) (source : Expr) (object : Object)
    (next : String → List Step) :
    run (naming kind source object next) =
      match nameOf kind source object with
      | .ok name => run (next name)
      | .error error => throw error := by
  rw [naming, run_resolving, find_eq, nameOf]
  cases resolve source object with
  | error error => rfl
  | ok found => cases checked : kind.check found.text <;> simp [Step.run, checked]

theorem run_attributeSteps (object : Object) (item : Attribute) :
    run (attributeSteps object item) = emitAttribute item object := by
  rw [attributeSteps, run_naming, emitAttribute, attributeName_eq]
  cases nameOf .attribute item.name object with
  | error error => rfl
  | ok name => simp [run_resolving, Step.run, spellAttribute]

theorem run_elementSteps (head : Head) (object : Object) (body : List Step) :
    run (elementSteps head object body) = emit head object (run body) := by
  rw [elementSteps, run_naming, emit, tagName_eq]
  cases nameOf .tag head.name object with
  | error error => rfl
  | ok tag => simp [run_flatMap, run_attributeSteps, Step.run, endTag]

theorem Rounds.run_steps (rounds : Rounds) (each : Object → Object → List Step) :
    Render.run (rounds.steps each) = rounds.run fun front inner => Render.run (each front inner) := by
  rw [Rounds.steps, run_append, run_flatMap, Rounds.run]
  cases rounds.failure with
  | none => rfl
  | some error => simp [Step.run]

mutual
theorem render_eq_run (node : Node) (object : Object) :
    render node object = run (steps node object) := by
  cases node with
  | element head children =>
    have inside (front inner : Object) :
        run (elementSteps head front (stepsAll children inner)) =
          emit head front (renderAll children inner) := by
      rw [run_elementSteps, renderAll_eq_run children inner]
    rw [render, forEach_eq_run, steps, Rounds.run_steps]
    simp only [inside]
  | text text => simp [render, steps, Step.run]
  | value source => simp [render, steps, run_resolving, Step.run]
  | scope source children =>
    rw [render, steps, run_resolving]
    exact congrArg _ (funext fun found => renderAll_eq_run children found)

/-- Rendering runs the steps of the nodes. -/
theorem renderAll_eq_run (nodes : List Node) (object : Object) :
    renderAll nodes object = run (stepsAll nodes object) := by
  cases nodes with
  | nil => rfl
  | cons node nodes =>
    rw [renderAll_cons, stepsAll, run_append, render_eq_run node object,
      renderAll_eq_run nodes object]
end

/-! ## Names that fall due -/

/-- A step that does not end a run by itself. -/
def Step.Passes : Step → Prop
  | .due kind name => kind.check name = .ok ()
  | .write _ => True
  | .fail _ => False

/-- What steps write, put together. -/
def pieces : List Step → String
  | [] => ""
  | .write piece :: steps => piece ++ pieces steps
  | .due _ _ :: steps | .fail _ :: steps => pieces steps

/-- Steps that pass write all their pieces, as long as the sink takes them. -/
theorem start_run_of_passes {front : List Step} (passes : ∀ step ∈ front, step.Passes)
    (sink : Sink) : (run front).start sink = sink.receive (pieces front) (.ok ()) := by
  induction front generalizing sink with
  | nil => rw [pieces, Sink.receive_empty]; rfl
  | cons step steps ih =>
    obtain ⟨here, others⟩ := List.forall_mem_cons.mp passes
    rw [run_cons, start_bind]
    cases step with
    | due kind name =>
      have checked : (Step.due kind name).run = pure () := by rw [Step.run, here]
      rw [checked, pieces]
      exact ih others sink
    | write piece =>
      rw [Step.run, (Streams.write piece).start_eq, outcome_write, pieces, Sink.receive_append,
        Sink.receive]
      cases sink.add piece with
      | mk after whole =>
        cases whole with
        | true => exact ih others after
        | false => rfl
    | fail error => exact here.elim

/-- A run ends with the first name that is refused. The sink has the pieces before it. -/
theorem start_run_of_refused {front rest : List Step} {kind : NameKind} {name : String}
    {cause : Xml.NameError} {sink after : Sink} (passes : ∀ step ∈ front, step.Passes)
    (refused : kind.check name = .error cause) (taken : sink.add (pieces front) = (after, true)) :
    (run (front ++ .due kind name :: rest)).start sink =
      (.error (.invalidName kind name cause), after) := by
  have stops : (Step.due kind name).run = throw (.invalidName kind name cause) := by
    rw [Step.run, refused]
  rw [run_append, start_bind, start_run_of_passes passes, Sink.receive, taken, run_cons, stops]
  rfl

/-- Rendering comes to a name after steps that all pass. -/
structure FallsDue (template : Template) (root : Object) (front : List Step) (kind : NameKind)
    (name : String) : Prop where
  reached : ∃ rest, stepsAll template.nodes root = front ++ .due kind name :: rest
  passes : ∀ step ∈ front, step.Passes

/-- What an action has added to any sink is the beginning of trees with names, and all of them if it
succeeds. -/
theorem Grows.exists_begins {action : Action Unit} {grown : Except RenderError (List Tree)}
    (grows : Grows action grown) (sink : Sink) :
    ∃ written rest forest, (action.start sink).2.text = sink.text ++ written ∧
      written ++ rest = spellAll forest ∧ Begins written forest ∧ AllNamed forest ∧
      ((action.start sink).1 = .ok () → rest = "") := by
  cases run : action.start sink with
  | mk result after =>
    cases result with
    | error error =>
      obtain ⟨written, forest, text, named, begins, -⟩ := grows.begins run
      obtain ⟨rest, whole⟩ := begins.completed
      exact ⟨written, rest, forest, text, whole, begins, named, nofun⟩
    | ok done =>
      obtain ⟨result, text⟩ := grows.writes.streams.text_of_ok run
      cases found : grown with
      | error error =>
        rw [grows.result_of_error found] at result
        cases result
      | ok forest =>
        rw [grows.outcome_of_ok found] at text
        exact ⟨spellAll forest, "", forest, text, String.append_empty, Xml.begins_spellAll forest,
          grows.named forest found, fun _ => rfl⟩

/-- Whatever the template and the host data, and whether rendering fails or not, the tags that it adds
to a sink have safe names only, also the one that it may be cut off in. When rendering comes to a name
that is not safe, it fails with this name, and nothing of the name is in the sink. -/
theorem renderTo_names (template : Template) (root : Object) (sink : Sink) :
    (∃ written rest forest, (template.renderTo root sink).2.text = sink.text ++ written ∧
      written ++ rest = spellAll forest ∧ Begins written forest ∧
      ((template.renderTo root sink).1 = .ok () → rest = "") ∧
      readFragment (written ++ rest) = some (Xml.merge forest) ∧
      ∀ start ∈ startsAll forest, NameKind.Safe .tag start.tag ∧
        ∀ item ∈ start.attributes, NameKind.Safe .attribute item.1) ∧
    ∀ front kind name after, FallsDue template root front kind name →
      sink.add (pieces front) = (after, true) → ¬ kind.Safe name →
      after.text = sink.text ++ pieces front ∧
        ∃ cause, template.renderTo root sink = (.error (.invalidName kind name cause), after) := by
  constructor
  · obtain ⟨written, rest, forest, text, whole, begins, named, complete⟩ :=
      (grows_renderAll template.nodes root).exists_begins sink
    refine ⟨written, rest, forest, text, whole, begins, complete, ?_, fun start mem => ⟨?_, ?_⟩⟩
    · rw [whole]
      exact Xml.readFragment_spellAll (Xml.allPlain_of_allNamed named)
    · exact NameKind.safe_of_check (named start mem).tag
    · exact fun item listed => NameKind.safe_of_check ((named start mem).attributes item listed)
  · rintro front kind name after ⟨⟨rest, reached⟩, passes⟩ taken unfit
    refine ⟨Sink.text_add taken, ?_⟩
    cases checked : kind.check name with
    | ok done => exact absurd (NameKind.safe_of_check checked) unfit
    | error cause =>
      refine ⟨cause, ?_⟩
      rw [Template.renderTo, renderAll_eq_run, reached]
      exact start_run_of_refused passes checked taken

/-- The tag for the second of two items is reserved. -/
theorem renderTo_names_of_items :
    let template : Template :=
      ⟨[.element ⟨.literal "t", none, []⟩
        [.element ⟨.current, some (.items .current), [⟨.current, .literal "1"⟩]⟩ []]]⟩
    let root := Object.sequence [.plain "a", .plain "xMl"] ""
    let front : List Step :=
      [.due .tag "t", .write "<t", .write ">", .due .tag "a", .write "<a", .due .attribute "a",
        .write " a=\"1\"", .write ">", .write "</a>"]
    let after := Sink.unbounded "x<t><a a=\"1\"></a>"
    FallsDue template root front .tag "xMl" ∧ ¬ NameKind.Safe .tag "xMl" ∧
      ∃ cause, template.renderTo root (.unbounded "x") =
        (.error (.invalidName .tag "xMl" cause), after) := by
  intro template root front after
  have due : FallsDue template root front .tag "xMl" :=
    ⟨⟨_, rfl⟩, by simpa [front, Step.Passes] using ⟨rfl, rfl, rfl⟩⟩
  have reserved : ¬ NameKind.Safe .tag "xMl" := fun safe => safe.unreserved (by decide)
  have failing := (renderTo_names template root (.unbounded "x")).2 front .tag "xMl" after due
    rfl reserved
  exact ⟨due, reserved, failing.2⟩

/-- The space mark U+1680 is white space, and an attribute name that has it is written. -/
theorem render_spaceMark :
    let template : Template :=
      ⟨[.element ⟨.literal "item", none, [⟨.current, .literal "1"⟩]⟩ []]⟩
    let name := "a\u1680b"
    let text := "<item a\u1680b=\"1\"></item>"
    template.render (.plain name) = .ok text ∧
      readFragment text = some [.element "item" [(name, "1")] []] ∧
      '\u1680' ∈ name.toList ∧ Text.isBlank '\u1680' = true := by
  intro template name text
  let trees : List Tree := [.element "item" [("a\u1680b", "1")] []]
  have grown : forest template (.plain "a\u1680b") = .ok trees := by rfl
  have spelled : spellAll trees = text := by decide +kernel
  have rendered : template.render (.plain name) = .ok text := by
    rw [render_eq_spellAll, grown, ← spelled]
    rfl
  have read : readFragment text = some trees := by
    rw [← spelled]
    exact Xml.readFragment_spellAll (Xml.allPlain_of_allNamed (allNamed_treesAll grown))
  exact ⟨rendered, read, by decide, by decide⟩

end Render

end XmlTemplate
