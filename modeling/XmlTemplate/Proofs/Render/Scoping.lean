import XmlTemplate.Proofs.Render.Streaming

/-!
# Scopes as substitution

The segments that a scope walks may as well be put in front of every expression that reads the object
in scope. What reads something else is left alone: the items, entries and numbers of a repetition, and
the inside of another scope. Errors stay the same but for the path of an expression that was changed,
which has the segments in it.

Results:
1. `resolve_under`: an expression with the segments in front reaches what it reached in the scope.
2. `rounds_under`: a repetition has the same rounds.
3. `renderAll_under`: nodes with the segments in front of them, and the nodes in the scope.
4. `marks_render`: rendering with marked errors does what rendering does, up to these errors.
-/

namespace XmlTemplate

/-! ## Segments in front -/

/-- The expression with segments in front of what it reads from the object in scope. -/
def Expr.under (steps : List Step) : Expr → Expr
  | .literal text => .literal text
  | .current => .ofSteps steps
  | .chain .current more => .chain .current (steps ++ more)
  | .chain base more => .chain (base.under steps) more

/-- Only the source of a repetition reads the object in scope. -/
def Repetition.under (steps : List Step) : Repetition → Repetition
  | .items source => .items (source.under steps)
  | .entries source => .entries (source.under steps)
  | .times count => .times count

/-- Both expressions of an attribute read the object in scope. -/
def Attribute.under (steps : List Step) (item : Attribute) : Attribute :=
  ⟨item.name.under steps, item.value.under steps⟩

namespace Node

mutual
/-- The node with segments in front of every expression that reads the object in scope. Inside a
repeated element and inside a scope other objects are read. -/
def under (steps : List Step) : Node → Node
  | .element ⟨name, none, attributes⟩ children =>
    .element ⟨name.under steps, none, attributes.map (Attribute.under steps)⟩
      (underAll steps children)
  | .element ⟨name, some repetition, attributes⟩ children =>
    .element ⟨name, some (repetition.under steps), attributes⟩ children
  | .text words => .text words
  | .value source => .value (source.under steps)
  | .scope source children => .scope (source.under steps) children

/-- The nodes with segments in front of every expression that reads the object in scope. -/
def underAll (steps : List Step) : List Node → List Node
  | [] => []
  | node :: nodes => node.under steps :: underAll steps nodes
end

end Node

namespace Render

/-! ## Paths -/

/-- The path with segments after the sign for the object in scope at its front. -/
def insertSteps (steps : List Step) (path : String) : String :=
  match path.toList with
  | '?' :: rest => "?" ++ Step.spellings steps ++ String.ofList rest
  | _ => path

/-- The error with segments at the front of its path. -/
def LookupError.under (steps : List Step) (error : LookupError) : LookupError :=
  { error with path := insertSteps steps error.path }

theorem insertSteps_current (steps : List Step) (rest : String) :
    insertSteps steps ("?" ++ rest) = "?" ++ Step.spellings steps ++ rest := by
  simp [insertSteps, String.toList_append]

theorem insertSteps_eq_or (steps : List Step) (path : String) :
    insertSteps steps path = path ∨ ∃ rest, path = "?" ++ rest ∧
      insertSteps steps path = "?" ++ Step.spellings steps ++ rest := by
  unfold insertSteps
  split
  · rename_i rest spelled
    refine .inr ⟨String.ofList rest, ?_, rfl⟩
    simp [← String.toList_inj, String.toList_append, spelled]
  · exact .inl rfl

theorem insertSteps_append {path : String} (present : path ≠ "") (steps : List Step)
    (rest : String) : insertSteps steps (path ++ rest) = insertSteps steps path ++ rest := by
  unfold insertSteps
  rw [String.toList_append]
  cases spelled : path.toList with
  | nil => exact absurd (String.toList_eq_nil_iff.mp spelled) present
  | cons first chars =>
    by_cases sign : first = '?'
    · simp [sign, String.append_assoc, String.ofList_append]
    · simp [sign]

/-- A literal is spelled as a word or in quotes, and neither starts with the sign for the object in
scope. -/
theorem word_starts (text : String) :
    ∃ first rest, (Format.word text).toList = first :: rest ∧ first ≠ '?' := by
  unfold Format.word
  split
  · rename_i bare
    rw [Format.isBareWord, Bool.and_eq_true, List.all_eq_true] at bare
    cases spelled : text.toList with
    | nil => simp [String.toList_eq_nil_iff.mp spelled] at bare
    | cons first rest =>
      refine ⟨first, rest, rfl, ?_⟩
      rintro rfl
      have sign := bare.2 '?' (by simp [spelled])
      simp [Format.isBare, Format.isReserved, Format.reserved] at sign
  · exact ⟨'"', _, by rw [Format.quote, String.toList_ofList], by decide⟩

theorem spelling_ne_empty (expr : Expr) : expr.spelling ≠ "" := by
  induction expr with
  | literal text =>
    obtain ⟨first, rest, spelled, -⟩ := word_starts text
    intro empty
    simp [Expr.spelling, ← String.toList_eq_nil_iff, spelled] at empty
  | current => simp [Expr.spelling]
  | chain base steps ih => simp [Expr.spelling, ih]

theorem spelling_under (steps : List Step) (expr : Expr) :
    (expr.under steps).spelling = insertSteps steps expr.spelling := by
  induction expr with
  | literal text =>
    obtain ⟨first, rest, spelled, other⟩ := word_starts text
    simp [Expr.under, Expr.spelling, insertSteps, spelled, other]
  | current =>
    have sign := insertSteps_current steps ""
    rw [String.append_empty, String.append_empty] at sign
    rw [Expr.under, Expr.spelling_ofSteps, Expr.spelling, sign]
  | chain base more ih =>
    rw [Expr.spelling, insertSteps_append (spelling_ne_empty base), ← ih]
    cases base with
    | current =>
      rw [Expr.under, Expr.under, Expr.spelling_ofSteps, Expr.spelling, Step.spellings_append,
        String.append_assoc, Expr.spelling]
    | literal text => rfl
    | chain base inner => rfl

/-! ## Expressions -/

theorem walk_under {path : String} (present : path ≠ "") (steps more : List Step)
    (object : Object) :
    walk (insertSteps steps path) more object =
      (walk path more object).mapError (·.under steps) := by
  induction more generalizing path object with
  | nil => rfl
  | cons next more ih =>
    rw [walk, walk]
    cases step object next with
    | error reason => rfl
    | ok found =>
      have longer : path ++ "." ++ next.spelling ≠ "" := by simp
      rw [String.append_assoc] at longer
      simp only [String.append_assoc]
      rw [← ih longer, insertSteps_append present]

section
variable {steps : List Step} {outer inner : Object}
  (reached : resolve (.ofSteps steps) outer = .ok inner)
include reached

/-- An expression with segments in front reaches what it reaches in their scope. -/
theorem resolve_under (expr : Expr) :
    resolve (expr.under steps) outer = (resolve expr inner).mapError (·.under steps) := by
  induction expr with
  | literal text => rfl
  | current => exact reached
  | chain base more ih =>
    have walked : (resolve (base.under steps) outer >>= walk (base.under steps).spelling more) =
        (resolve (.chain base more) inner).mapError (·.under steps) := by
      rw [ih, spelling_under, resolve]
      cases resolve base inner with
      | error error => rfl
      | ok found => exact walk_under (spelling_ne_empty base) steps more found
    rw [← walked]
    cases base with
    | current =>
      -- the segments in front and the ones after them are walked in one run
      rw [Expr.under, Expr.under, Expr.spelling_ofSteps, resolve_ofSteps]
      exact walk_append "?" steps more outer
    | literal text => rfl
    | chain base middle => rfl

end

/-! ## Marked errors -/

/-- A lookup error is marked, and every other error stays. -/
def RenderError.marking (mark : LookupError → LookupError) : RenderError → RenderError
  | .lookup error => .lookup (mark error)
  | error => error

namespace Rounds

/-- The rounds with the error that ends them marked. -/
def marking (mark : LookupError → LookupError) (rounds : Rounds) : Rounds :=
  { rounds with failure := rounds.failure.map mark }

theorem ofPairs_marking (mark : LookupError → LookupError) (failure : LookupError)
    (items : List Object) :
    ofPairs (mark failure) items = (ofPairs failure items).marking mark := by
  induction items with
  | nil => rfl
  | cons item items ih =>
    rw [ofPairs, ofPairs]
    cases components? item with
    | none => rfl
    | some round => simp [ih, marking]

theorem ofItems_under (steps : List Step) (source : Expr) (items : Object) :
    ofItems (source.under steps) items = (ofItems source items).marking (·.under steps) := by
  unfold ofItems
  rw [spelling_under]
  split
  · rfl
  · split
    · rfl
    · cases items.count? <;> rfl

theorem ofEntries_under (steps : List Step) (source : Expr) (entries : Object) :
    ofEntries (source.under steps) entries =
      (ofEntries source entries).marking (·.under steps) := by
  unfold ofEntries
  rw [spelling_under]
  split
  · rfl
  · split
    · exact ofPairs_marking (·.under steps) ⟨source.spelling, "~", .notPairs⟩ entries.items
    · rfl

end Rounds

namespace Action

variable {α β : Type} (mark : LookupError → LookupError)

/-- The action with its lookup errors marked. -/
def marking (action : Action α) : Action α := fun sink =>
  ((action sink).1.mapError (RenderError.marking mark), (action sink).2)

theorem start_marking (action : Action α) (sink : Sink) :
    (action.marking mark).start sink =
      ((action.start sink).1.mapError (RenderError.marking mark), (action.start sink).2) := rfl

theorem marking_pure (x : α) : (pure x : Action α).marking mark = pure x := rfl

theorem marking_write (piece : String) : (write piece).marking mark = write piece := by
  funext sink
  simp only [marking, write]
  rcases sink.add piece with ⟨after, _ | _⟩ <;> rfl

theorem marking_bind (action : Action α) (next : α → Action β) :
    (action >>= next).marking mark =
      action.marking mark >>= fun x => (next x).marking mark := by
  funext sink
  show ((action >>= next).marking mark).start sink = Action.start _ sink
  rw [start_marking, start_bind, start_bind, start_marking]
  rcases action.start sink with ⟨_ | _, after⟩ <;> rfl

theorem marking_forM {γ : Type} (items : List γ) (action : γ → Action Unit) :
    (forM items action).marking mark = forM items fun item => (action item).marking mark := by
  induction items with
  | nil => rfl
  | cons item items ih => rw [List.forM_cons, List.forM_cons, marking_bind, ih]

end Action

/-! ## Rendering with marked errors -/

mutual
/-- A node is written, and the lookup errors of the expressions that read the object in scope are
marked. Those of expressions that read an item, an entry, a number or the object of another scope
stay as they are. -/
def renderMarking (mark : LookupError → LookupError) : Node → Object → Action Unit
  | .element ⟨name, none, attributes⟩ children, object => do
    let tag ← (openTag ⟨name, none, attributes⟩ object).marking mark
    renderAllMarking mark children object
    write ("</" ++ tag ++ ">")
  | .element ⟨name, some repetition, attributes⟩ children, object =>
    ((rounds (some repetition) object).marking mark).run fun front inner =>
      emit ⟨name, some repetition, attributes⟩ front (renderAll children inner)
  | .text text, _ => write (Xml.escapeText text)
  | .value source, object => do
    let found ← (find source object).marking mark
    write (Xml.escapeText found.text)
  | .scope source children, object => do
    let found ← (find source object).marking mark
    renderAll children found

/-- Nodes are written in order, with the errors of expressions that read the object in scope
marked. -/
def renderAllMarking (mark : LookupError → LookupError) : List Node → Object → Action Unit
  | [], _ => pure ()
  | node :: nodes, object => do
    renderMarking mark node object
    renderAllMarking mark nodes object
end

/-! ## Nodes with segments in front -/

section
variable {steps : List Step} {outer inner : Object}
  (reached : resolve (.ofSteps steps) outer = .ok inner)
include reached

theorem find_under (source : Expr) :
    find (source.under steps) outer = (find source inner).marking (·.under steps) := by
  unfold find
  rw [resolve_under reached]
  cases resolve source inner <;> rfl

theorem tagName_under (name : Expr) :
    tagName (name.under steps) outer = (tagName name inner).marking (·.under steps) := by
  rw [tagName, tagName, find_under reached, Action.marking_bind]
  congr
  funext found
  cases Xml.checkTag found.text <;> rfl

theorem attributeName_under (name : Expr) :
    attributeName (name.under steps) outer =
      (attributeName name inner).marking (·.under steps) := by
  rw [attributeName, attributeName, find_under reached, Action.marking_bind]
  congr
  funext found
  cases Xml.checkAttribute found.text <;> rfl

theorem emitAttribute_under (item : Attribute) :
    emitAttribute (item.under steps) outer =
      (emitAttribute item inner).marking (·.under steps) := by
  simp only [emitAttribute, Attribute.under, attributeName_under reached, find_under reached,
    Action.marking_bind, Action.marking_write]

theorem openTag_under (name : Expr) (attributes : List Attribute) :
    openTag ⟨name.under steps, none, attributes.map (Attribute.under steps)⟩ outer =
      (openTag ⟨name, none, attributes⟩ inner).marking (·.under steps) := by
  have items : ((attributes.map (Attribute.under steps)).forM fun item => emitAttribute item outer) =
      (attributes.forM fun item => emitAttribute item inner).marking (·.under steps) := by
    simp [Action.marking_forM, List.forM_map, emitAttribute_under reached]
  simp only [openTag, tagName_under reached, items, Action.marking_bind, Action.marking_write,
    Action.marking_pure]

theorem rounds_under (repetition : Repetition) :
    rounds (some (repetition.under steps)) outer =
      (rounds (some repetition) inner).marking (·.under steps) := by
  cases repetition with
  | times count => rfl
  | items source =>
    rw [Repetition.under, rounds, rounds, resolve_under reached]
    cases resolve source inner with
    | error error => rfl
    | ok items => exact Rounds.ofItems_under steps source items
  | entries source =>
    rw [Repetition.under, rounds, rounds, resolve_under reached]
    cases resolve source inner with
    | error error => rfl
    | ok entries => exact Rounds.ofEntries_under steps source entries

end

mutual
theorem render_under {steps : List Step} {outer inner : Object}
    (reached : resolve (.ofSteps steps) outer = .ok inner) (node : Node) :
    render (node.under steps) outer = renderMarking (·.under steps) node inner := by
  match node with
  | .element ⟨name, none, attributes⟩ children =>
    rw [Node.under, render, forEach, emit_eq, openTag_under reached, renderMarking,
      renderAll_under reached children]
  | .element ⟨name, some repetition, attributes⟩ children =>
    rw [Node.under, render, forEach_eq_run, renderMarking, rounds_under reached]
    rfl
  | .text text => rfl
  | .value source => rw [Node.under, render, renderMarking, find_under reached]
  | .scope source children => rw [Node.under, render, renderMarking, find_under reached]

theorem renderAll_under {steps : List Step} {outer inner : Object}
    (reached : resolve (.ofSteps steps) outer = .ok inner) (nodes : List Node) :
    renderAll (Node.underAll steps nodes) outer =
      renderAllMarking (·.under steps) nodes inner := by
  match nodes with
  | [] => rfl
  | node :: nodes =>
    rw [Node.underAll, renderAll_cons, renderAllMarking, render_under reached node,
      renderAll_under reached nodes]
end

/-! ## Runs that differ in marks -/

/-- An action does what another one does, but its lookup error may be marked. -/
def Marks {α : Type} (mark : LookupError → LookupError) (marked plain : Action α) : Prop :=
  ∀ sink, marked.start sink = plain.start sink ∨
    marked.start sink = (plain.marking mark).start sink

namespace Marks

variable {α β : Type} {mark : LookupError → LookupError}

theorem refl (action : Action α) : Marks mark action action := fun _ => .inl rfl

theorem marking (action : Action α) : Marks mark (action.marking mark) action := fun _ => .inr rfl

theorem bind {marked plain : Action α} {next other : α → Action β} (first : Marks mark marked plain)
    (second : ∀ x, Marks mark (next x) (other x)) :
    Marks mark (marked >>= next) (plain >>= other) := by
  intro sink
  have start := first sink
  rw [Action.marking_bind, start_bind, start_bind, start_bind]
  rw [Action.start_marking] at start ⊢
  generalize plain.start sink = run at start ⊢
  rcases run with ⟨error | x, after⟩
  · -- a failure ends both, and the second part is not reached
    rcases start with same | same <;> rw [same]
    · exact .inl rfl
    · exact .inr rfl
  · have same : marked.start sink = (.ok x, after) := start.elim id id
    rw [same]
    exact second x after

end Marks

theorem marks_run (mark : LookupError → LookupError) (rounds : Rounds)
    (action : Object → Object → Action Unit) :
    Marks mark ((rounds.marking mark).run action) (rounds.run action) := by
  obtain ⟨objects, failure⟩ := rounds
  refine (Marks.refl _).bind fun _ => ?_
  cases failure with
  | none => exact .refl _
  | some error => exact .marking (throw (.lookup error))

mutual
theorem marks_render (mark : LookupError → LookupError) (node : Node) (object : Object) :
    Marks mark (renderMarking mark node object) (render node object) := by
  match node with
  | .element ⟨name, none, attributes⟩ children =>
    rw [renderMarking, render, forEach, emit_eq]
    exact (Marks.marking _).bind fun tag =>
      (marks_renderAll mark children object).bind fun _ => .refl _
  | .element ⟨name, some repetition, attributes⟩ children =>
    rw [renderMarking, render, forEach_eq_run]
    exact marks_run mark _ _
  | .text text => exact .refl _
  | .value source => exact (Marks.marking _).bind fun found => .refl _
  | .scope source children => exact (Marks.marking _).bind fun found => .refl _

theorem marks_renderAll (mark : LookupError → LookupError) (nodes : List Node) (object : Object) :
    Marks mark (renderAllMarking mark nodes object) (renderAll nodes object) := by
  match nodes with
  | [] => exact .refl _
  | node :: nodes =>
    exact (marks_render mark node object).bind fun _ => marks_renderAll mark nodes object
end

theorem marking_id {α : Type} (action : Action α) : action.marking id = action := by
  have same (result : Except RenderError α) :
      result.mapError (RenderError.marking id) = result := by
    rcases result with (_ | _ | _) | _ <;> rfl
  funext sink
  exact Prod.ext (same (action sink).1) rfl

/-- Marks that change nothing are not seen: rendering with them is rendering. -/
theorem renderAllMarking_id (nodes : List Node) (object : Object) :
    renderAllMarking id nodes object = renderAll nodes object := by
  funext sink
  rcases marks_renderAll id nodes object sink with same | same
  · exact same
  · rwa [marking_id] at same

/-! ## Scopes -/

/-- Results that are the same, except that the path of a lookup error may have the segments after the
sign for the object in scope. -/
def SameUpToPath (steps : List Step) (plain other : Except RenderError Unit) : Prop :=
  other = plain ∨ ∃ rest segment reason,
    plain = .error (.lookup ⟨"?" ++ rest, segment, reason⟩) ∧
      other = .error (.lookup ⟨"?" ++ Step.spellings steps ++ rest, segment, reason⟩)

theorem sameUpToPath_marking (steps : List Step) (result : Except RenderError Unit) :
    SameUpToPath steps result (result.mapError (RenderError.marking (·.under steps))) := by
  rcases result with (⟨path, segment, reason⟩ | _ | _) | _
  · have marked : Except.mapError (RenderError.marking (·.under steps))
        (.error (.lookup ⟨path, segment, reason⟩) : Except RenderError Unit) =
          .error (.lookup ⟨insertSteps steps path, segment, reason⟩) := rfl
    rw [marked]
    rcases insertSteps_eq_or steps path with same | ⟨rest, rfl, inserted⟩
    · exact .inl (by rw [same])
    · exact .inr ⟨rest, segment, reason, rfl, by rw [inserted]⟩
  · exact .inl rfl
  · exact .inl rfl
  · exact .inl rfl

/-- Nodes in the scope of a run of segments do what the nodes with these segments in front do outside
of it. Into every sink they write the same text, both succeed or both fail, and an error differs in its
path at most. Its path has the segments in it if an expression raised it that they were put in front of,
as the marks tell, and no other error is changed. -/
theorem renderAll_in_scope {steps : List Step} {outer inner : Object}
    (reached : resolve (.ofSteps steps) outer = .ok inner) (nodes : List Node) (sink : Sink) :
    let inside := (renderAll nodes inner).start sink
    let outside := (renderAll (Node.underAll steps nodes) outer).start sink
    outside.2 = inside.2 ∧ SameUpToPath steps inside.1 outside.1 ∧
      outside = (renderAllMarking (·.under steps) nodes inner).start sink ∧
      inside = (renderAllMarking id nodes inner).start sink ∧
      inside = (render (.scope (.ofSteps steps) nodes) outer).start sink := by
  intro inside outside
  have marked : outside = (renderAllMarking (·.under steps) nodes inner).start sink := by
    rw [← renderAll_under reached]
  have plain : inside = (renderAllMarking id nodes inner).start sink := by
    rw [renderAllMarking_id]
  have scope : render (.scope (.ofSteps steps) nodes) outer = renderAll nodes inner := by
    rw [render, find, reached]
    rfl
  have alike : outside.2 = inside.2 ∧ SameUpToPath steps inside.1 outside.1 := by
    rcases marks_renderAll (·.under steps) nodes inner sink with same | same <;>
      rw [marked, same]
    · exact ⟨rfl, .inl rfl⟩
    · exact ⟨rfl, sameUpToPath_marking steps inside.1⟩
  exact ⟨alike.1, alike.2, marked, plain, by rw [scope]⟩

/-- An element with an attribute of the scope and items of it. In the one case an item fails, whose
path stays, and in the other the scope does. -/
theorem renderAll_in_scope_of_items :
    let steps := [Step.key "a", .index "0"]
    let inner := Object.mapping
      [("id", .plain "7"), ("list", .sequence [.mapping [("x", .plain "<")] "", .plain "y"] "")] ""
    let outer := Object.mapping [("a", .sequence [inner] "")] ""
    let item := Node.element ⟨.literal "i", some (.items (.chain .current [.key "list"])), []⟩
      [.value (.chain .current [.key "x"])]
    let row (last : Node) := [Node.element
      ⟨.literal "row", none, [⟨.literal "id", .chain .current [.key "id"]⟩]⟩ [last]]
    let missing := Node.value (.chain .current [.key "id", .key "z"])
    resolve (.ofSteps steps) outer = .ok inner ∧
      Node.underAll steps (row missing) =
        [.element ⟨.literal "row", none,
            [⟨.literal "id", .chain .current [.key "a", .index "0", .key "id"]⟩]⟩
          [.value (.chain .current [.key "a", .index "0", .key "id", .key "z"])]] ∧
      (renderAll (row item) inner).start (.unbounded "") =
        (.error (.lookup ⟨"?", "x", .noAccess⟩), .unbounded "<row id=\"7\"><i>&lt;</i><i>") ∧
      (renderAll (row missing) inner).start (.unbounded "") =
        (.error (.lookup ⟨"?.id", "z", .noAccess⟩), .unbounded "<row id=\"7\">") ∧
      (renderAll (Node.underAll steps (row item)) outer).start (.unbounded "") =
        (.error (.lookup ⟨"?", "x", .noAccess⟩), .unbounded "<row id=\"7\"><i>&lt;</i><i>") ∧
      (renderAll (Node.underAll steps (row missing)) outer).start (.unbounded "") =
        (.error (.lookup ⟨"?.a.0.id", "z", .noAccess⟩), .unbounded "<row id=\"7\">") := by
  intro steps inner outer item row missing
  have reached : resolve (.ofSteps steps) outer = .ok inner := by rfl
  refine ⟨reached, by rfl, by rfl, by rfl, ?_, ?_⟩
  · obtain ⟨-, -, marked, -⟩ := renderAll_in_scope reached (row item) (.unbounded "")
    exact marked.trans (by rfl)
  · obtain ⟨-, -, marked, -⟩ := renderAll_in_scope reached (row missing) (.unbounded "")
    exact marked.trans (by rfl)

end Render

end XmlTemplate
