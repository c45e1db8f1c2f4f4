import XmlTemplate.Host.Object
import XmlTemplate.Text.Quoted
import XmlTemplate.Value.Convert

/-!
# Hosts

Rendering accepts values, JSON values, scalars, lists, tables with text keys, optional and referenced
data, and pairs. Each kind has its object, which says how rendering sees it.

Results:
1. `Object.reference_eq`, `Object.optional_some`, `Object.ofList_eq`: wrappers answer as what they hold.
2. `toObject_reference`, `toObject_option_some`: references and present options are seen through.
-/

namespace XmlTemplate

/-! ## Values -/

namespace Value

mutual
/-- The object of a value. -/
def toObject : Value → Object
  | .list items => .sequence (toObjects items) (Value.list items).text
  | .map entries => .mapping (namedObjects entries) (Value.map entries).text
  | .record fields => .record (namedObjects fields) (Value.record fields).text
  | .number digits => .counting (Value.number digits).count? digits
  | scalar => .plain scalar.text

/-- The objects of the items. -/
def toObjects : List Value → List Object
  | [] => []
  | item :: items => item.toObject :: toObjects items

/-- The objects of the entries with their names. -/
def namedObjects : List (String × Value) → List (String × Object)
  | [] => []
  | (name, item) :: entries => (name, item.toObject) :: namedObjects entries
end

end Value

/-! ## JSON values -/

namespace Json

/-- A number as a number of repetitions: a whole number that is not negative. -/
def count? : JsonNumber → Option Nat
  | .whole n => if 0 ≤ n then some n.toNat else none
  | .real _ => none

mutual
/-- The object of a JSON value. -/
def toObject : Json → Object
  | .array items => .sequence (toObjects items) (Json.array items).compact
  | .object entries => .mapping (namedObjects entries) (Json.object entries).compact
  | .null => .plain ""
  | .string text => .plain text
  | .number n => .counting (count? n) (numberText n)
  | scalar => .plain scalar.compact

/-- The objects of the items. -/
def toObjects : List Json → List Object
  | [] => []
  | item :: items => item.toObject :: toObjects items

/-- The objects of the entries with their names. -/
def namedObjects : List (String × Json) → List (String × Object)
  | [] => []
  | (name, item) :: entries => (name, item.toObject) :: namedObjects entries
end

end Json

/-! ## Wrappers -/

namespace Object

/-- A reference: every question goes to what it refers to. -/
def reference (inner : Object) : Object where
  capabilities := inner.capabilities
  attribute? name := inner.attribute? name
  key? name := inner.key? name
  item? i := inner.item? i
  items := inner.items
  pairs := inner.pairs
  count? := inner.count?
  text := inner.text

/-- Something that may be missing: every question goes to what is there, and what is missing has
nothing. -/
def optional (inner : Option Object) : Object where
  capabilities := (inner.map capabilities).getD .none
  attribute? name := inner.bind fun object => object.attribute? name
  key? name := inner.bind fun object => object.key? name
  item? i := inner.bind fun object => object.item? i
  items := (inner.map items).getD []
  pairs := (inner.map pairs).getD []
  count? := inner.bind count?
  text := (inner.map text).getD ""

theorem reference_eq (inner : Object) : reference inner = inner := by
  cases inner
  rfl

theorem optional_some (inner : Object) : optional (some inner) = inner := by
  cases inner
  rfl

end Object

/-! ## Collections -/

/-- How a list is held. -/
inductive ListKind where
  | growing
  | slice
  | fixed
  deriving DecidableEq, Repr

namespace Object

/-- The texts with commas between them. -/
def commaText (texts : List String) : String := ",".intercalate texts

/-- Items in order, with their texts as the text. -/
def ofItems (items : List Object) : Object := sequence items (commaText (items.map text))

/-- A list that is held in some way: it has the kinds of access of a slice, and its items and its text
are those of the slice of its items. -/
def ofList : ListKind → List Object → Object
  | .slice, items => ofItems items
  | .growing, items | .fixed, items =>
    let slice := ofItems items
    { capabilities := .ordered
      attribute? := fun _ => none
      key? := fun _ => none
      item? := fun i => slice.item? i
      items := slice.items
      pairs := []
      count? := none
      text := slice.text }

theorem ofList_eq (kind : ListKind) (items : List Object) : ofList kind items = ofItems items := by
  cases kind <;> rfl

/-- Entries under keys, with the texts of the entries as the text. -/
def ofEntries (entries : List (String × Object)) : Object :=
  mapping entries (commaText (entries.map fun entry => entry.1 ++ "=" ++ entry.2.text))

/-- A pair as messages show it. -/
def pairText (key value : Object) : String :=
  "Pair \x7b key: " ++ Text.quoted key.text ++ ", value: " ++ Text.quoted value.text ++ " \x7d"

end Object

/-- How a table with text keys is ordered. -/
inductive TableKind where
  | sorted
  | insertion
  deriving DecidableEq, Repr

/-- The table of entries in its order. -/
def TableKind.arrange {α : Type} : TableKind → List (String × α) → Table α
  | .sorted, entries => Table.sorted entries
  | .insertion, entries => Table.ofEntries entries

/-- Data that rendering accepts. -/
inductive Host where
  | value (data : Value)
  | json (data : Json)
  | integer (n : Int)
  | binary (width : Decimal.Width) (x : Decimal.Binary)
  | bool (b : Bool)
  | string (text : String)
  | list (kind : ListKind) (items : List Host)
  | table (kind : TableKind) (entries : List (String × Host))
  | option (inner : Option Host)
  | reference (inner : Host)
  | pair (first second : Host)
  /-- An object of its own kind. -/
  | custom (object : Object)

namespace Host

mutual
/-- The object of data. -/
def toObject : Host → Object
  | .value data => data.toObject
  | .json data => data.toObject
  | .integer n => .counting (if 0 ≤ n then some n.toNat else none) (toString n)
  | .binary width x => .plain (Decimal.asText.write width x)
  | .bool b => .plain (if b then "true" else "false")
  | .string text => .plain text
  | .list kind items => .ofList kind (toObjects items)
  | .table kind entries => .ofEntries (kind.arrange (namedObjects entries))
  | .option inner => .optional (optionObject? inner)
  | .reference inner => .reference inner.toObject
  | .pair first second => .pair first.toObject second.toObject
  | .custom object => object

/-- The object of something that may be missing. -/
def optionObject? : Option Host → Option Object
  | some inner => some inner.toObject
  | none => none

/-- The objects of the items. -/
def toObjects : List Host → List Object
  | [] => []
  | item :: items => item.toObject :: toObjects items

/-- The objects of the entries with their names. -/
def namedObjects : List (String × Host) → List (String × Object)
  | [] => []
  | (name, item) :: entries => (name, item.toObject) :: namedObjects entries
end

@[simp] theorem toObject_reference (inner : Host) :
    (reference inner).toObject = inner.toObject :=
  Object.reference_eq inner.toObject

@[simp] theorem toObject_option_some (inner : Host) :
    (option (some inner)).toObject = inner.toObject :=
  Object.optional_some inner.toObject

end Host

end XmlTemplate
