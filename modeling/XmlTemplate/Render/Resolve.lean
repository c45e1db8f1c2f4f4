import XmlTemplate.Decimal.Integer
import XmlTemplate.Host.Object
import XmlTemplate.Render.Error
import XmlTemplate.Template.Spelling

/-!
# Resolving expressions

A segment asks an object for an attribute, then for a key, and then, if it is a run of digits, for
an item. The first answer counts; without one the reason tells what the object does support.

Results:
1. `resolve_ofSteps`: segments after the object in scope are walked from it.
2. `walk_append`: a run of segments is walked from left to right.
-/

namespace XmlTemplate.Render

/-- Why an object has no answer to a segment. -/
def refusal (caps : Capabilities) : Reason :=
  if caps.isEmpty then .noAccess
  else if caps.attributes || caps.keys then .noEntry
  else if caps.sequence then .notDigits
  else .pairsOnly

/-- The answer of an object to a name, as an attribute or else as a key. -/
def answer? (object : Object) (name : String) : Option Object :=
  let attribute? := if object.capabilities.attributes then object.attribute? name else none
  let key? := if object.capabilities.keys then object.key? name else none
  attribute?.or key?

/-- The item of a sequence at the position that the digits spell. -/
def itemAt? (object : Object) (digits : String) : Option Object :=
  (Decimal.natural? Decimal.wordBound digits).bind object.item?

/-- The object that a segment gives. -/
def step (object : Object) : Step → Except Reason Object
  | .key name =>
    match answer? object name with
    | some found => .ok found
    | none => .error (refusal object.capabilities)
  | .index digits =>
    match answer? object digits with
    | some found => .ok found
    | none =>
      if object.capabilities.sequence then
        match itemAt? object digits with
        | some found => .ok found
        | none => .error .outOfRange
      else .error (refusal object.capabilities)

/-- The object at the end of the segments. What resolved before a segment fails is `path` followed
by the segments before it. -/
def walk (path : String) : List Step → Object → Except LookupError Object
  | [], object => .ok object
  | next :: steps, object =>
    match step object next with
    | .ok found => walk (path ++ "." ++ next.spelling) steps found
    | .error reason => .error ⟨path, next.spelling, reason⟩

/-- The object that an expression gives for the object in scope. -/
def resolve : Expr → Object → Except LookupError Object
  | .literal text, _ => .ok (.plain text)
  | .current, object => .ok object
  | .chain base steps, object => do
    let found ← resolve base object
    walk base.spelling steps found

theorem resolve_ofSteps (steps : List Step) (object : Object) :
    resolve (.ofSteps steps) object = walk "?" steps object := by
  cases steps <;> rfl

theorem walk_append (path : String) (front back : List Step) (object : Object) :
    walk path (front ++ back) object =
      (walk path front object).bind (walk (path ++ Step.spellings front) back) := by
  induction front generalizing path object with
  | nil => simp [walk, Step.spellings, Except.bind]
  | cons next steps ih =>
    simp only [List.cons_append, walk]
    cases step object next with
    | error reason => rfl
    | ok found => simp [ih, Step.spellings, String.append_assoc]

end XmlTemplate.Render
