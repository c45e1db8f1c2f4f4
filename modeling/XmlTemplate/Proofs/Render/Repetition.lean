import XmlTemplate.Render.Node

/-!
# The rounds of a repetition

An element is emitted once for each round of its repetition. A round has the object that the head
reads and the one that the children read. The rounds are known before anything is written; a source
that cannot be repeated over, and an item that is no pair, end them with an error.

Results:
1. `emit_eq`: a round writes a start tag, what stands inside, and the end tag of the same name.
2. `countUp_eq_forM`: counting upward is a round for each number below the count.
3. `forEach_eq_run`: a repetition runs its rounds in order and then fails if they end with an error.
-/

namespace XmlTemplate.Render

/-- The objects of the rounds in order, and the error that ends them. -/
structure Rounds where
  objects : List (Object × Object)
  failure : Option LookupError

namespace Rounds

/-- Rounds that end without an error. -/
def all (objects : List (Object × Object)) : Rounds := ⟨objects, none⟩

/-- No round at all, for an error. -/
def fail (error : LookupError) : Rounds := ⟨[], some error⟩

/-- The rounds for each of the objects, which head and children read both. -/
def each (items : List Object) : Rounds := all (items.map fun item => (item, item))

/-- A round for each of `count` numbers from `start` on. -/
def numbers (count start : Nat) : Rounds := each ((List.range' start count).map .ofNat)

/-- The rounds for items that are to be pairs, up to the first that is none. -/
def ofPairs (failure : LookupError) : List Object → Rounds
  | [] => all []
  | item :: items =>
    match components? item with
    | some round => { ofPairs failure items with objects := round :: (ofPairs failure items).objects }
    | none => fail failure

/-- The rounds over the items, pairs or numbers of an object. -/
def ofItems (source : Expr) (items : Object) : Rounds :=
  if items.capabilities.sequence then each items.items
  else if items.capabilities.pairs then
    each (items.pairs.map fun entry => .pair entry.1 entry.2)
  else
    match items.count? with
    | some count => numbers count 0
    | none => fail ⟨source.spelling, "*", .notRepeatable⟩

/-- The rounds over the keys and values of an object. -/
def ofEntries (source : Expr) (entries : Object) : Rounds :=
  if entries.capabilities.pairs then all entries.pairs
  else if entries.capabilities.sequence then
    ofPairs ⟨source.spelling, "~", .notPairs⟩ entries.items
  else fail ⟨source.spelling, "~", .notMapping⟩

/-- The action for each round, and then the error that ends them. -/
def run (rounds : Rounds) (action : Object → Object → Action Unit) : Action Unit := do
  rounds.objects.forM fun round => action round.1 round.2
  match rounds.failure with
  | some error => throw (.lookup error)
  | none => pure ()

end Rounds

/-- The rounds of a repetition for the object in scope. -/
def rounds (repetition : Option Repetition) (object : Object) : Rounds :=
  match repetition with
  | none => .all [(object, object)]
  | some (.times count) => .numbers count 0
  | some (.items source) =>
    match resolve source object with
    | .ok items => .ofItems source items
    | .error error => .fail error
  | some (.entries source) =>
    match resolve source object with
    | .ok entries => .ofEntries source entries
    | .error error => .fail error

/-! ## One round -/

/-- The start tag of an element, which gives the name for the end tag. -/
def openTag (head : Head) (object : Object) : Action String := do
  let tag ← tagName head.name object
  write ("<" ++ tag)
  head.attributes.forM fun item => emitAttribute item object
  write ">"
  return tag

theorem emit_eq (head : Head) (object : Object) (body : Action Unit) :
    emit head object body = (do
      let tag ← openTag head object
      body
      write ("</" ++ tag ++ ">")) := by
  simp [emit, openTag]

/-! ## Running the rounds -/

theorem countUp_eq_forM (action : Nat → Action Unit) (count start : Nat) :
    countUp action count start = (List.range' start count).forM action := by
  induction count generalizing start with
  | zero => rfl
  | succ count ih =>
    rw [countUp_succ, ih, List.range'_succ]
    rfl

namespace Rounds

variable (action : Object → Object → Action Unit)

theorem run_all (objects : List (Object × Object)) :
    (all objects).run action = objects.forM fun round => action round.1 round.2 := by
  simp [run, all]

theorem run_each (items : List Object) :
    (each items).run action = items.forM fun item => action item item := by
  simp [each, run_all, List.forM_map]

theorem run_numbers (count start : Nat) :
    (numbers count start).run action =
      countUp (fun n => action (.ofNat n) (.ofNat n)) count start := by
  simp [numbers, run_each, List.forM_map, countUp_eq_forM]

theorem run_ofPairs (failure : LookupError) (items : List Object) :
    (ofPairs failure items).run action =
      items.forM fun item =>
        match components? item with
        | some (key, value) => action key value
        | none => throw (.lookup failure) := by
  induction items with
  | nil => rfl
  | cons item items ih =>
    rw [List.forM_eq_forM, List.forM_cons, ← List.forM_eq_forM, ← ih, ofPairs]
    cases components? item with
    | some round => simp [run]
    | none => rfl

theorem run_ofItems (source : Expr) (items : Object) :
    (ofItems source items).run action =
      forItems source items fun item => action item item := by
  unfold ofItems forItems
  split
  · exact run_each action items.items
  · split
    · simp [run_each, List.forM_map]
    · cases items.count? with
      | some count => exact run_numbers action count 0
      | none => rfl

theorem run_ofEntries (source : Expr) (entries : Object) :
    (ofEntries source entries).run action = forEntries source entries action := by
  unfold ofEntries forEntries
  split
  · exact run_all action entries.pairs
  · split
    · exact run_ofPairs action _ entries.items
    · rfl

end Rounds

theorem forEach_eq_run (repetition : Option Repetition) (object : Object)
    (action : Object → Object → Action Unit) :
    forEach repetition object action = (rounds repetition object).run action := by
  match repetition with
  | none => simp [forEach, rounds, Rounds.run_all]
  | some (.times count) => exact (Rounds.run_numbers action count 0).symm
  | some (.items source) =>
    simp only [forEach, rounds, find]
    cases resolve source object with
    | ok items => exact (Rounds.run_ofItems action source items).symm
    | error error => rfl
  | some (.entries source) =>
    simp only [forEach, rounds, find]
    cases resolve source object with
    | ok entries => exact (Rounds.run_ofEntries action source entries).symm
    | error error => rfl

end XmlTemplate.Render
