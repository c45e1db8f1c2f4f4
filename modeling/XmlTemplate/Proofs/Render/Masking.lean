import XmlTemplate.Proofs.Render.Repetition

/-!
# Declared capabilities

An object may answer kinds of access that it does not declare. Masking it removes these answers, from
the object and from every object that it gives. Rendering asks for declared kinds of access only, so
it cannot tell an object from the masked one.

Results:
1. `mask_plain`, `mask_ofNat`, `mask_pair`: the objects that rendering makes itself are masked by
   masking what they are made of.
2. `resolve_mask`: an expression reaches the masked object.
3. `rounds_mask`: a repetition has the masked rounds.
4. `renderTo_mask`: the masked object is rendered in the same way, errors included.
-/

namespace XmlTemplate

/-! ## Masked objects -/

namespace Object

mutual
/-- The object without the answers that it does not declare. A count is only asked of an object that
is neither a sequence nor a collection of pairs. -/
def mask : Object → Object
  | ⟨caps, attribute?, key?, item?, items, pairs, count?, text⟩ =>
    { capabilities := caps
      attribute? := fun name => if caps.attributes then maskAnswer (attribute? name) else none
      key? := fun name => if caps.keys then maskAnswer (key? name) else none
      item? := fun i => if caps.sequence then maskAnswer (item? i) else none
      items := if caps.sequence then maskAll items else []
      pairs := if caps.pairs then maskPairs pairs else []
      count? := if caps.sequence || caps.pairs then none else count?
      text := text }

/-- An answer is masked. -/
def maskAnswer : Option Object → Option Object
  | none => none
  | some object => some object.mask

/-- Objects are masked one by one. -/
def maskAll : List Object → List Object
  | [] => []
  | object :: objects => object.mask :: maskAll objects

/-- A key and its value are masked. -/
def maskPair : Object × Object → Object × Object
  | (key, value) => (key.mask, value.mask)

/-- Keys and values are masked one by one. -/
def maskPairs : List (Object × Object) → List (Object × Object)
  | [] => []
  | entry :: entries => maskPair entry :: maskPairs entries
end

theorem maskPair_eq (entry : Object × Object) : maskPair entry = (entry.1.mask, entry.2.mask) := by
  obtain ⟨key, value⟩ := entry
  rfl

theorem maskAnswer_eq (answer : Option Object) : maskAnswer answer = answer.map mask := by
  cases answer <;> rfl

theorem maskAll_eq (objects : List Object) : maskAll objects = objects.map mask := by
  induction objects with
  | nil => rfl
  | cons object objects ih => rw [maskAll, ih, List.map_cons]

theorem maskPairs_eq (entries : List (Object × Object)) :
    maskPairs entries = entries.map maskPair := by
  induction entries with
  | nil => rfl
  | cons entry entries ih => rw [maskPairs, ih, List.map_cons]

section
variable (object : Object)

@[simp] theorem mask_capabilities : object.mask.capabilities = object.capabilities := by
  cases object
  rfl

@[simp] theorem mask_text : object.mask.text = object.text := by
  cases object
  rfl

theorem mask_attribute? (name : String) :
    object.mask.attribute? name =
      if object.capabilities.attributes then (object.attribute? name).map mask else none := by
  cases object
  simp only [mask, maskAnswer_eq]

theorem mask_key? (name : String) :
    object.mask.key? name =
      if object.capabilities.keys then (object.key? name).map mask else none := by
  cases object
  simp only [mask, maskAnswer_eq]

variable {object}

theorem mask_item? (sequence : object.capabilities.sequence = true) (i : Nat) :
    object.mask.item? i = (object.item? i).map mask := by
  cases object
  simp_all only [mask, maskAnswer_eq, if_true]

theorem mask_items (sequence : object.capabilities.sequence = true) :
    object.mask.items = object.items.map mask := by
  cases object
  simp_all only [mask, maskAll_eq, if_true]

theorem mask_pairs (pairs : object.capabilities.pairs = true) :
    object.mask.pairs = object.pairs.map maskPair := by
  cases object
  simp_all only [mask, maskPairs_eq, if_true]

theorem mask_count? (sequence : object.capabilities.sequence = false)
    (pairs : object.capabilities.pairs = false) : object.mask.count? = object.count? := by
  cases object
  simp_all [mask]
end

/-! ### Objects that rendering makes -/

theorem mask_plain (text : String) : (plain text).mask = plain text := rfl

/-- A text that also answers with items, without saying so. -/
example : mask { plain "a" with items := [plain "b"], item? := fun _ => plain "b" } = plain "a" := rfl

theorem mask_ofNat (n : Nat) : (ofNat n).mask = ofNat n := rfl

theorem mask_pair (key value : Object) : (pair key value).mask = pair key.mask value.mask := by
  have items (i : Nat) : maskAnswer ([key, value][i]?) = [key.mask, value.mask][i]? := by
    rw [maskAnswer_eq, ← List.getElem?_map]
    rfl
  simp [pair, sequence, mask, Capabilities.ordered, maskAll, items]

end Object

namespace Render

open Object (mask maskPair)

variable (object : Object)

/-! ## Expressions -/

theorem answer?_mask (name : String) :
    answer? object.mask name = (answer? object name).map mask := by
  unfold answer?
  rw [Object.mask_capabilities, Object.mask_attribute?, Object.mask_key?]
  cases object.capabilities.attributes <;> cases object.capabilities.keys <;> simp [Option.map_or]

theorem step_mask (segment : Step) : step object.mask segment = (step object segment).map mask := by
  cases segment with
  | key name =>
    simp only [step, answer?_mask, Object.mask_capabilities]
    cases answer? object name <;> rfl
  | index digits =>
    simp only [step, answer?_mask, Object.mask_capabilities]
    cases answer? object digits with
    | some found => rfl
    | none =>
      cases sequence : object.capabilities.sequence with
      | false => rfl
      | true =>
        have items : itemAt? object.mask digits = (itemAt? object digits).map mask := by
          have answers : object.mask.item? = Option.map mask ∘ object.item? :=
            funext (Object.mask_item? sequence)
          rw [itemAt?, itemAt?, answers, Option.map_bind]
        simp only [Option.map_none, items, if_true]
        cases itemAt? object digits <;> rfl

theorem walk_mask (path : String) (steps : List Step) :
    walk path steps object.mask = (walk path steps object).map mask := by
  induction steps generalizing path object with
  | nil => rfl
  | cons next steps ih =>
    rw [walk, walk, step_mask]
    cases step object next with
    | error reason => rfl
    | ok found => exact ih found _

theorem resolve_mask (expr : Expr) :
    resolve expr object.mask = (resolve expr object).map mask := by
  induction expr with
  | literal text => exact congrArg Except.ok (Object.mask_plain text).symm
  | current => rfl
  | chain base steps ih =>
    rw [resolve, resolve, ih]
    cases resolve base object with
    | error error => rfl
    | ok found => exact walk_mask found base.spelling steps

/-! ## Repetitions -/

namespace Rounds

/-- The rounds with other objects. -/
def map (f : Object × Object → Object × Object) (rounds : Rounds) : Rounds :=
  { rounds with objects := rounds.objects.map f }

theorem each_mask (items : List Object) :
    each (items.map mask) = (each items).map maskPair := by
  simp [map, each, all, Function.comp_def, Object.maskPair]

theorem numbers_mask (count start : Nat) :
    numbers count start = (numbers count start).map maskPair := by
  have counted : ((List.range' start count).map Object.ofNat).map mask =
      (List.range' start count).map .ofNat := by
    simp [Function.comp_def, Object.mask_ofNat]
  rw [numbers, ← each_mask, counted]

theorem ofPairs_mask (failure : LookupError) (items : List Object) :
    ofPairs failure (items.map mask) = (ofPairs failure items).map maskPair := by
  have components (item : Object) : components? item.mask = (components? item).map maskPair := by
    unfold components?
    rw [Object.mask_capabilities]
    cases sequence : item.capabilities.sequence with
    | false => rfl
    | true =>
      simp only [if_true, Object.mask_item? sequence]
      cases item.item? 0 <;> cases item.item? 1 <;> rfl
  induction items with
  | nil => rfl
  | cons item items ih =>
    rw [List.map_cons, ofPairs, ofPairs, components]
    cases components? item with
    | none => rfl
    | some round => simp [ih, map]

theorem ofItems_mask (source : Expr) (items : Object) :
    ofItems source items.mask = (ofItems source items).map maskPair := by
  unfold ofItems
  rw [Object.mask_capabilities]
  cases sequence : items.capabilities.sequence with
  | true =>
    simp only [if_true, Object.mask_items sequence]
    exact each_mask items.items
  | false =>
    cases pairs : items.capabilities.pairs with
    | true =>
      -- a pair is made of the masked key and value, which is the same as masking the pair
      simp [Object.mask_pairs pairs, ← each_mask, Object.mask_pair, Object.maskPair_eq,
        Function.comp_def]
    | false =>
      rw [Object.mask_count? sequence pairs]
      cases items.count? with
      | none => rfl
      | some count => exact numbers_mask count 0

theorem ofEntries_mask (source : Expr) (entries : Object) :
    ofEntries source entries.mask = (ofEntries source entries).map maskPair := by
  unfold ofEntries
  rw [Object.mask_capabilities]
  cases pairs : entries.capabilities.pairs with
  | true =>
    simp only [if_true, Object.mask_pairs pairs]
    rfl
  | false =>
    cases sequence : entries.capabilities.sequence with
    | true =>
      simp only [if_true, Object.mask_items sequence]
      exact ofPairs_mask _ _
    | false => rfl

/-- Rounds are run alike if the action cannot tell their objects apart. -/
theorem run_map {action : Object → Object → Action Unit} {f : Object × Object → Object × Object}
    (same : ∀ round, action (f round).1 (f round).2 = action round.1 round.2) (rounds : Rounds) :
    (rounds.map f).run action = rounds.run action := by
  simp [run, map, List.forM_map, same]

end Rounds

theorem rounds_mask (repetition : Option Repetition) :
    rounds repetition object.mask = (rounds repetition object).map maskPair := by
  match repetition with
  | none => rfl
  | some (.times count) => exact Rounds.numbers_mask count 0
  | some (.items source) =>
    rw [rounds, rounds, resolve_mask]
    cases resolve source object with
    | error error => rfl
    | ok items => exact Rounds.ofItems_mask source items
  | some (.entries source) =>
    rw [rounds, rounds, resolve_mask]
    cases resolve source object with
    | error error => rfl
    | ok entries => exact Rounds.ofEntries_mask source entries

/-! ## Rendering -/

/-- What comes after an expression cannot tell the objects apart either. -/
theorem find_mask_bind {α : Type} (source : Expr) {next : Object → Action α}
    (same : ∀ found : Object, next found.mask = next found) :
    find source object.mask >>= next = find source object >>= next := by
  unfold find
  rw [resolve_mask]
  cases resolve source object with
  | error error => rfl
  | ok found => exact same found

theorem emitAttribute_mask (item : Attribute) :
    emitAttribute item object.mask = emitAttribute item object := by
  have name : attributeName item.name object.mask = attributeName item.name object :=
    find_mask_bind object item.name fun found => by rw [Object.mask_text]
  rw [emitAttribute, name]
  congr
  funext name
  exact find_mask_bind object item.value fun found => by rw [Object.mask_text]

theorem emit_mask (head : Head) (body : Action Unit) :
    emit head object.mask body = emit head object body := by
  have tag : tagName head.name object.mask = tagName head.name object :=
    find_mask_bind object head.name fun found => by rw [Object.mask_text]
  simp only [emit, tag, emitAttribute_mask]

mutual
theorem render_mask (node : Node) (object : Object) :
    render node object.mask = render node object := by
  cases node with
  | element head children =>
    rw [render, render, forEach_eq_run, forEach_eq_run, rounds_mask]
    refine Rounds.run_map (fun round => ?_) _
    rw [Object.maskPair_eq, emit_mask, renderAll_mask children round.2]
  | text text => rfl
  | value source => exact find_mask_bind object source fun found => by rw [Object.mask_text]
  | scope source children =>
    exact find_mask_bind object source fun found => renderAll_mask children found

theorem renderAll_mask (nodes : List Node) (object : Object) :
    renderAll nodes object.mask = renderAll nodes object := by
  cases nodes with
  | nil => rfl
  | cons node nodes =>
    rw [renderAll_cons, renderAll_cons, render_mask node object, renderAll_mask nodes object]
end

/-- Answers to kinds of access that an object does not declare change nothing: neither the text that
is written into a sink nor the result. -/
theorem renderTo_mask (template : Template) (root : Object) (sink : Sink) :
    template.renderTo root.mask sink = template.renderTo root sink := by
  rw [Template.renderTo, Template.renderTo, renderAll_mask]

end Render

end XmlTemplate
