import XmlTemplate.Host.Host
import XmlTemplate.Render.Node

/-!
# Wrappers

References, present options and the ways of holding a list are wrappers: data inside them is seen as
it is without them. Data can be stripped of all its wrappers, at every depth, and rendering cannot
tell. A missing option is the null value.

Results:
1. `unwrapped_strip`: nothing is left to be stripped.
2. `toObject_strip`: data has the same object without its wrappers.
3. `renderTo_strip`: rendering is the same without wrappers.
-/

namespace XmlTemplate.Host

mutual
/-- The data without wrappers. A missing option is the null value, and every list is a growing one. -/
def strip : Host → Host
  | .list _ items => .list .growing (stripAll items)
  | .table kind entries => .table kind (stripEntries entries)
  | .option inner => stripOption inner
  | .reference inner => inner.strip
  | .pair first second => .pair first.strip second.strip
  | other => other

/-- What is there without its wrappers, or the null value. -/
def stripOption : Option Host → Host
  | some inner => inner.strip
  | none => .value .null

/-- The items without their wrappers. -/
def stripAll : List Host → List Host
  | [] => []
  | item :: items => item.strip :: stripAll items

/-- The entries with their values without wrappers. -/
def stripEntries : List (String × Host) → List (String × Host)
  | [] => []
  | (name, item) :: entries => (name, item.strip) :: stripEntries entries
end

/-- There is no wrapper anywhere inside the data. -/
inductive Unwrapped : Host → Prop
  | value (data : Value) : Unwrapped (.value data)
  | json (data : Json) : Unwrapped (.json data)
  | integer (n : Int) : Unwrapped (.integer n)
  | binary (width : Decimal.Width) (x : Decimal.Binary) : Unwrapped (.binary width x)
  | bool (b : Bool) : Unwrapped (.bool b)
  | string (text : String) : Unwrapped (.string text)
  | list {items : List Host} :
      (∀ item ∈ items, Unwrapped item) → Unwrapped (.list .growing items)
  | table (kind : TableKind) {entries : List (String × Host)} :
      (∀ entry ∈ entries, Unwrapped entry.2) → Unwrapped (.table kind entries)
  | pair {first second : Host} :
      Unwrapped first → Unwrapped second → Unwrapped (.pair first second)
  | custom (object : Object) : Unwrapped (.custom object)

mutual
theorem unwrapped_strip (host : Host) : host.strip.Unwrapped := by
  cases host with
  | value data => exact .value data
  | json data => exact .json data
  | integer n => exact .integer n
  | binary width x => exact .binary width x
  | bool b => exact .bool b
  | string text => exact .string text
  | list kind items => exact .list (unwrapped_stripAll items)
  | table kind entries => exact .table kind (unwrapped_stripEntries entries)
  | option inner => exact unwrapped_stripOption inner
  | reference inner => exact unwrapped_strip inner
  | pair first second => exact .pair (unwrapped_strip first) (unwrapped_strip second)
  | custom object => exact .custom object

theorem unwrapped_stripOption (inner : Option Host) : (stripOption inner).Unwrapped := by
  cases inner with
  | none => exact .value .null
  | some inner => exact unwrapped_strip inner

theorem unwrapped_stripAll (items : List Host) : ∀ item ∈ stripAll items, item.Unwrapped := by
  cases items with
  | nil => exact List.forall_mem_nil _
  | cons item items =>
    exact List.forall_mem_cons.mpr ⟨unwrapped_strip item, unwrapped_stripAll items⟩

theorem unwrapped_stripEntries (entries : List (String × Host)) :
    ∀ entry ∈ stripEntries entries, entry.2.Unwrapped := by
  cases entries with
  | nil => exact List.forall_mem_nil _
  | cons entry entries =>
    exact List.forall_mem_cons.mpr ⟨unwrapped_strip entry.2, unwrapped_stripEntries entries⟩
end

mutual
/-- The objects inside are the same by induction, so the texts and answers that are made of them are. -/
theorem toObject_strip (host : Host) : host.strip.toObject = host.toObject := by
  cases host with
  | value | json | integer | binary | bool | string | custom => rfl
  | list kind items =>
    rw [strip, toObject, toObject, toObjects_stripAll items, Object.ofList_eq, Object.ofList_eq]
  | table kind entries => rw [strip, toObject, toObject, namedObjects_stripEntries entries]
  | option inner => rw [strip, toObject, toObject_stripOption inner]
  | reference inner => rw [strip, toObject_reference, toObject_strip inner]
  | pair first second => rw [strip, toObject, toObject, toObject_strip first, toObject_strip second]

theorem toObject_stripOption (inner : Option Host) :
    (stripOption inner).toObject = .optional (optionObject? inner) := by
  cases inner with
  | none => rfl
  | some inner => rw [stripOption, toObject_strip inner, optionObject?, Object.optional_some]

theorem toObjects_stripAll (items : List Host) : toObjects (stripAll items) = toObjects items := by
  cases items with
  | nil => rfl
  | cons item items =>
    rw [stripAll, toObjects, toObjects, toObject_strip item, toObjects_stripAll items]

theorem namedObjects_stripEntries (entries : List (String × Host)) :
    namedObjects (stripEntries entries) = namedObjects entries := by
  cases entries with
  | nil => rfl
  | cons entry entries =>
    rw [stripEntries, namedObjects, namedObjects, toObject_strip entry.2,
      namedObjects_stripEntries entries]
end

/-- Data that is stripped of its wrappers has none left, and every template is rendered against it as
against the data itself: the same text in any sink, and the same result. -/
theorem renderTo_strip (host : Host) :
    host.strip.Unwrapped ∧ ∀ (template : Template) (sink : Render.Sink),
      template.renderTo host.strip.toObject sink = template.renderTo host.toObject sink :=
  ⟨unwrapped_strip host, fun template sink => by rw [toObject_strip]⟩

end XmlTemplate.Host
