import XmlTemplate.Proofs.Render.Repetition
import XmlTemplate.Proofs.Render.Streaming
import XmlTemplate.Proofs.Result
import XmlTemplate.Proofs.Xml.Fragment

/-!
# The trees of a template

Rendering stands for trees: an element for each round of its repetition, with its resolved names and
raw values, and the raw character data of texts and values. They are found without any markup. What
rendering writes is their spelling, and a reader of fragments finds the same trees in it.

Results:
1. `writes_render`, `writes_renderAll`: nodes are written as the spelling of their trees, and fail
   with the error of their trees.
2. `render_eq_spellAll`: the same for templates.
3. `readFragment_render`: the text of a template is read back as its trees, so neither host data nor
   literals can change the markup.
-/

namespace XmlTemplate.Render

open Result (bind_eq_ok)
open Xml (AllNamed Tree spellAll spellAttribute spellAttributes startTag endTag)

/-! ## Trees of nodes -/

/-- The first fault of a text as a name of a kind. -/
def NameKind.check : NameKind → String → Except Xml.NameError Unit
  | .tag => Xml.checkTag
  | .attribute => Xml.checkAttribute

/-- The name that an expression gives. -/
def nameOf (kind : NameKind) (name : Expr) (object : Object) : Except RenderError String :=
  match resolve name object with
  | .error error => .error (.lookup error)
  | .ok found =>
    match kind.check found.text with
    | .ok () => .ok found.text
    | .error cause => .error (.invalidName kind found.text cause)

/-- The raw text that an expression gives. -/
def textOf (source : Expr) (object : Object) : Except RenderError String :=
  match resolve source object with
  | .error error => .error (.lookup error)
  | .ok found => .ok found.text

/-- The attributes in order, with their raw values. -/
def attributesOf : List Attribute → Object → Except RenderError (List (String × String))
  | [], _ => .ok []
  | item :: items, object => do
    let name ← nameOf .attribute item.name object
    let value ← textOf item.value object
    let others ← attributesOf items object
    return (name, value) :: others

/-- The element for one round. -/
def elementOf (head : Head) (object : Object) (children : Except RenderError (List Tree)) :
    Except RenderError (List Tree) := do
  let tag ← nameOf .tag head.name object
  let attributes ← attributesOf head.attributes object
  let children ← children
  return [.element tag attributes children]

namespace Rounds

/-- The trees of the rounds in order. -/
def gather (trees : Object → Object → Except RenderError (List Tree)) :
    List (Object × Object) → Except RenderError (List Tree)
  | [] => .ok []
  | round :: rounds => do
    let first ← trees round.1 round.2
    let others ← gather trees rounds
    return first ++ others

/-- The trees of all rounds, if no error ends them. -/
def forest (rounds : Rounds) (trees : Object → Object → Except RenderError (List Tree)) :
    Except RenderError (List Tree) := do
  let forest ← gather trees rounds.objects
  match rounds.failure with
  | some error => .error (.lookup error)
  | none => .ok forest

end Rounds

mutual
/-- The trees that a node stands for. -/
def trees : Node → Object → Except RenderError (List Tree)
  | .element head children, object =>
    (rounds head.repetition object).forest fun front inner =>
      elementOf head front (treesAll children inner)
  | .text text, _ => .ok [.text text]
  | .value source, object => do
    let text ← textOf source object
    return [.text text]
  | .scope source children, object =>
    match resolve source object with
    | .error error => .error (.lookup error)
    | .ok found => treesAll children found

/-- The trees that nodes stand for, in order. -/
def treesAll : List Node → Object → Except RenderError (List Tree)
  | [], _ => .ok []
  | node :: nodes, object => do
    let first ← trees node object
    let others ← treesAll nodes object
    return first ++ others
end

/-! ## Writing a text -/

/-- The action writes the text that is expected, or fails with the error that is. -/
structure Writes (action : Action Unit) (expected : Except RenderError String) : Prop where
  streams : Streams action
  result : (outcome action).1 = expected.map fun _ => ()
  text : ∀ text, expected = .ok text → (outcome action).2 = text

namespace Writes

theorem pure : Writes (pure ()) (.ok "") where
  streams := .pure ()
  result := rfl
  text := by
    rintro text ⟨⟩
    rfl

theorem throw {error : RenderError} (other : error ≠ .write) :
    Writes (throw error) (.error error) where
  streams := .throw other
  result := rfl
  text := by simp

theorem write (piece : String) : Writes (write piece) (.ok piece) where
  streams := .write piece
  result := rfl
  text := by
    rintro text ⟨⟩
    exact String.empty_append

theorem seq {first second : Action Unit} {front back : Except RenderError String}
    (one : Writes first front) (two : Writes second back) :
    Writes (first >>= fun _ => second) (do
      let left ← front
      let right ← back
      return left ++ right) := by
  have streams := one.streams.bind fun _ => two.streams
  cases front with
  | error error =>
    -- what was written before the failure is not part of a text
    have whole := outcome_bind_error one.streams one.result fun _ => second
    exact ⟨streams, by rw [whole]; rfl, by rintro text ⟨⟩⟩
  | ok left =>
    have whole := outcome_bind_ok one.streams one.result (fun _ => second) two.streams
    refine ⟨streams, ?_, ?_⟩
    · rw [whole, two.result]
      cases back <;> rfl
    · intro text expected
      cases back with
      | error error => cases expected
      | ok right =>
        cases expected
        rw [whole, one.text left rfl, two.text right rfl]

/-- The expected text may be given in another form. -/
theorem of_eq {action : Action Unit} {expected other : Except RenderError String}
    (writes : Writes action expected) (same : expected = other) : Writes action other :=
  same ▸ writes

end Writes

/-! ## Writing trees -/

theorem find_eq (source : Expr) (object : Object) :
    find source object =
      match resolve source object with
      | .ok found => pure found
      | .error error => throw (.lookup error) := rfl

theorem tagName_eq (name : Expr) (object : Object) :
    tagName name object =
      match nameOf .tag name object with
      | .ok tag => pure tag
      | .error error => throw error := by
  simp only [tagName, nameOf, find_eq]
  cases resolve name object with
  | error error => rfl
  | ok found => cases checked : Xml.checkTag found.text <;> simp [NameKind.check, checked]

theorem attributeName_eq (name : Expr) (object : Object) :
    attributeName name object =
      match nameOf .attribute name object with
      | .ok name => pure name
      | .error error => throw error := by
  simp only [attributeName, nameOf, find_eq]
  cases resolve name object with
  | error error => rfl
  | ok found => cases checked : Xml.checkAttribute found.text <;> simp [NameKind.check, checked]

theorem nameOf_error_ne_write {kind : NameKind} {name : Expr} {object : Object}
    {error : RenderError} (fails : nameOf kind name object = .error error) : error ≠ .write := by
  unfold nameOf at fails
  split at fails
  · cases fails
    simp
  · split at fails
    · cases fails
    · cases fails
      simp

theorem writes_emitAttribute (item : Attribute) (object : Object) :
    Writes (emitAttribute item object) (do
      let name ← nameOf .attribute item.name object
      let value ← textOf item.value object
      return spellAttribute (name, value)) := by
  rw [emitAttribute, attributeName_eq]
  cases named : nameOf .attribute item.name object with
  | error error => exact .throw (nameOf_error_ne_write named)
  | ok name =>
    simp only [pure_bind, find_eq, textOf]
    cases resolve item.value object with
    | error error => exact .throw (by simp)
    | ok found =>
      simp only [pure_bind]
      exact .write _

theorem writes_attributes (items : List Attribute) (object : Object) :
    Writes (items.forM fun item => emitAttribute item object)
      ((attributesOf items object).map spellAttributes) := by
  induction items with
  | nil => exact .pure
  | cons item items ih =>
    refine ((writes_emitAttribute item object).seq ih).of_eq ?_
    rw [attributesOf]
    cases nameOf .attribute item.name object with
    | error error => rfl
    | ok name =>
      cases textOf item.value object with
      | error error => rfl
      | ok value => cases attributesOf items object <;> rfl

theorem writes_emit (head : Head) (object : Object) {body : Action Unit}
    {children : Except RenderError (List Tree)} (inner : Writes body (children.map spellAll)) :
    Writes (emit head object body) ((elementOf head object children).map spellAll) := by
  rw [emit, tagName_eq, elementOf]
  cases named : nameOf .tag head.name object with
  | error error => exact .throw (nameOf_error_ne_write named)
  | ok tag =>
    simp only [pure_bind]
    refine ((Writes.write _).seq ((writes_attributes head.attributes object).seq
      ((Writes.write ">").seq (inner.seq (.write _))))).of_eq ?_
    cases attributesOf head.attributes object with
    | error error => rfl
    | ok attributes =>
      cases children with
      | error error => rfl
      | ok children =>
        simp [Except.map, bind, Except.bind, pure, Except.pure, spellAll, Tree.spell, startTag,
          endTag, String.append_assoc]

/-- Trees in a row are spelled one after another. -/
theorem Writes.append {first second : Action Unit} {front back : Except RenderError (List Tree)}
    (one : Writes first (front.map spellAll)) (two : Writes second (back.map spellAll)) :
    Writes (first >>= fun _ => second)
      ((do
        let left ← front
        let right ← back
        return left ++ right : Except RenderError (List Tree)).map spellAll) := by
  refine (one.seq two).of_eq ?_
  cases front with
  | error error => rfl
  | ok left =>
    cases back with
    | error error => rfl
    | ok right => exact congrArg Except.ok (Xml.spellAll_append left right).symm

theorem writes_gather {action : Object → Object → Action Unit}
    {trees : Object → Object → Except RenderError (List Tree)}
    (each : ∀ front inner, Writes (action front inner) ((trees front inner).map spellAll))
    (objects : List (Object × Object)) :
    Writes (objects.forM fun round => action round.1 round.2)
      ((Rounds.gather trees objects).map spellAll) := by
  induction objects with
  | nil => exact .pure
  | cons round objects ih => exact (each round.1 round.2).append ih

theorem writes_run {action : Object → Object → Action Unit}
    {trees : Object → Object → Except RenderError (List Tree)}
    (each : ∀ front inner, Writes (action front inner) ((trees front inner).map spellAll))
    (rounds : Rounds) :
    Writes (rounds.run action) ((rounds.forest trees).map spellAll) := by
  have gathered := writes_gather each rounds.objects
  rw [Rounds.run, Rounds.forest]
  -- a failure comes after the rounds that were found, so their texts are written first
  cases rounds.failure with
  | none =>
    refine (gathered.seq .pure).of_eq ?_
    cases Rounds.gather trees rounds.objects with
    | error error => rfl
    | ok forest => exact congrArg Except.ok (String.append_empty)
  | some error =>
    have failing : Writes (throw (.lookup error)) (.error (.lookup error)) := .throw (by simp)
    refine (gathered.seq failing).of_eq ?_
    cases Rounds.gather trees rounds.objects <;> rfl

mutual
theorem writes_render (node : Node) (object : Object) :
    Writes (render node object) ((trees node object).map spellAll) := by
  cases node with
  | element head children =>
    rw [render, forEach_eq_run, trees]
    exact writes_run (fun front inner => writes_emit head front (writes_renderAll children inner)) _
  | text text =>
    refine (Writes.write _).of_eq ?_
    simp [trees, Except.map, spellAll, Tree.spell]
  | value source =>
    rw [render, find_eq, trees, textOf]
    cases resolve source object with
    | error error => exact .throw (by simp)
    | ok found =>
      refine (Writes.write _).of_eq ?_
      simp [bind, Except.bind, pure, Except.pure, Except.map, spellAll, Tree.spell]
  | scope source children =>
    rw [render, find_eq, trees]
    cases resolve source object with
    | error error => exact .throw (by simp)
    | ok found => exact writes_renderAll children found

theorem writes_renderAll (nodes : List Node) (object : Object) :
    Writes (renderAll nodes object) ((treesAll nodes object).map spellAll) := by
  cases nodes with
  | nil => exact .pure
  | cons node nodes => exact (writes_render node object).append (writes_renderAll nodes object)
end

/-! ## Names of trees -/

theorem check_of_nameOf {kind : NameKind} {name : Expr} {object : Object} {found : String}
    (named : nameOf kind name object = .ok found) : kind.check found = .ok () := by
  unfold nameOf at named
  split at named
  · cases named
  · split at named
    · rename_i passes
      cases named
      exact passes
    · cases named

theorem checkAttribute_of_attributesOf {items : List Attribute} {object : Object}
    {attributes : List (String × String)} (found : attributesOf items object = .ok attributes) :
    ∀ item ∈ attributes, Xml.checkAttribute item.1 = .ok () := by
  induction items generalizing attributes with
  | nil =>
    cases found
    simp
  | cons item items ih =>
    rw [attributesOf] at found
    obtain ⟨name, named, found⟩ := bind_eq_ok.mp found
    obtain ⟨value, _, found⟩ := bind_eq_ok.mp found
    obtain ⟨others, rest, found⟩ := bind_eq_ok.mp found
    cases found
    exact List.forall_mem_cons.mpr ⟨check_of_nameOf named, ih rest⟩

theorem allNamed_elementOf {head : Head} {object : Object}
    {children : Except RenderError (List Tree)} {forest : List Tree}
    (inner : ∀ trees, children = .ok trees → AllNamed trees)
    (found : elementOf head object children = .ok forest) : AllNamed forest := by
  obtain ⟨tag, named, found⟩ := bind_eq_ok.mp found
  obtain ⟨attributes, listed, found⟩ := bind_eq_ok.mp found
  obtain ⟨trees, inside, found⟩ := bind_eq_ok.mp found
  cases found
  exact Xml.allNamed_element.mpr
    ⟨⟨check_of_nameOf named, checkAttribute_of_attributesOf listed⟩, inner trees inside⟩

theorem allNamed_gather {trees : Object → Object → Except RenderError (List Tree)}
    (each : ∀ front inner forest, trees front inner = .ok forest → AllNamed forest)
    {objects : List (Object × Object)} {forest : List Tree}
    (found : Rounds.gather trees objects = .ok forest) : AllNamed forest := by
  induction objects generalizing forest with
  | nil =>
    cases found
    exact nofun
  | cons round objects ih =>
    obtain ⟨first, one, found⟩ := bind_eq_ok.mp found
    obtain ⟨others, rest, found⟩ := bind_eq_ok.mp found
    cases found
    exact Xml.allNamed_append.mpr ⟨each _ _ _ one, ih rest⟩

theorem Rounds.gather_of_forest {rounds : Rounds}
    {trees : Object → Object → Except RenderError (List Tree)} {forest : List Tree}
    (found : rounds.forest trees = .ok forest) : gather trees rounds.objects = .ok forest := by
  obtain ⟨gathered, every, found⟩ := bind_eq_ok.mp found
  cases ended : rounds.failure with
  | some error => simp [ended] at found
  | none =>
    simp only [ended, Except.ok.injEq] at found
    exact found ▸ every

mutual
theorem allNamed_trees {node : Node} {object : Object} {forest : List Tree}
    (found : trees node object = .ok forest) : AllNamed forest := by
  cases node with
  | element head children =>
    rw [trees] at found
    exact allNamed_gather (fun front inner forest grown =>
      allNamed_elementOf (fun forest inside => allNamed_treesAll inside) grown)
      (Rounds.gather_of_forest found)
  | text text =>
    cases found
    exact nofun
  | value source =>
    obtain ⟨text, _, found⟩ := bind_eq_ok.mp found
    cases found
    exact nofun
  | scope source children =>
    rw [trees] at found
    cases resolved : resolve source object with
    | error error => simp [resolved] at found
    | ok inside =>
      simp only [resolved] at found
      exact allNamed_treesAll found

theorem allNamed_treesAll {nodes : List Node} {object : Object} {forest : List Tree}
    (found : treesAll nodes object = .ok forest) : AllNamed forest := by
  cases nodes with
  | nil =>
    cases found
    exact nofun
  | cons node nodes =>
    obtain ⟨first, one, found⟩ := bind_eq_ok.mp found
    obtain ⟨others, rest, found⟩ := bind_eq_ok.mp found
    cases found
    exact Xml.allNamed_append.mpr ⟨allNamed_trees one, allNamed_treesAll rest⟩
end

theorem allPlain_treesAll {nodes : List Node} {object : Object} {forest : List Tree}
    (found : treesAll nodes object = .ok forest) : Xml.AllPlain forest :=
  Xml.allPlain_of_allNamed (allNamed_treesAll found)

/-! ## Templates -/

/-- The trees that a template stands for. -/
def forest (template : Template) (root : Object) : Except RenderError (List Tree) :=
  treesAll template.nodes root

theorem render_eq_spellAll (template : Template) (root : Object) :
    template.render root = (forest template root).map spellAll := by
  have writes := writes_renderAll template.nodes root
  have run := writes.streams.start_unbounded ""
  rw [Template.render, Template.renderTo, run, writes.result, forest]
  cases found : treesAll template.nodes root with
  | error error => rfl
  | ok trees =>
    have text := writes.text (spellAll trees) (by rw [found]; rfl)
    simp [Except.map, text, Sink.unbounded]

/-- Whatever the host data and the literals are, a text that rendering gives is read back as the
trees of the template: their elements, attributes and texts, in this order and nesting. -/
theorem readFragment_render {template : Template} {root : Object} {text : String}
    (done : template.render root = .ok text) :
    ∃ trees, forest template root = .ok trees ∧ Xml.readFragment text = some (Xml.merge trees) := by
  rw [render_eq_spellAll] at done
  cases found : forest template root with
  | error error => simp [found, Except.map] at done
  | ok trees =>
    rw [found] at done
    cases done
    exact ⟨trees, rfl, Xml.readFragment_spellAll (allPlain_treesAll found)⟩

/-- Items that spell markup, as an attribute and as character data of a repeated element. -/
theorem readFragment_render_hostile :
    let template : Template :=
      ⟨[.element ⟨.literal "row", some (.items .current), [⟨.literal "key", .current⟩]⟩
        [.value .current, .text "<&"]]⟩
    let root := Object.sequence [.plain "\"/><x>", .plain "</row>&amp;"] ""
    let text := "<row key=\"&quot;/&gt;&lt;x&gt;\">\"/&gt;&lt;x&gt;&lt;&amp;</row>" ++
      "<row key=\"&lt;/row&gt;&amp;amp;\">&lt;/row&gt;&amp;amp;&lt;&amp;</row>"
    template.render root = .ok text ∧
      ∃ trees, forest template root = .ok trees ∧
        Xml.readFragment text = some (Xml.merge trees) := by
  intro template root text
  have done : template.render root = .ok text := rfl
  exact ⟨done, readFragment_render done⟩

end XmlTemplate.Render
