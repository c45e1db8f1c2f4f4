import XmlTemplate.Decimal.Binary
import XmlTemplate.Value.Table

/-!
# JSON values

The entries of an object stand as they were written, repeated keys included; `Json.sorted` gives
the form in which every object is sorted by its keys and has each key once.
-/

namespace XmlTemplate

/-- A number is whole, or a floating-point number of 64 bits. -/
inductive JsonNumber where
  | whole (n : Int)
  | real (x : Decimal.Binary)
  deriving DecidableEq, Repr

/-- A JSON value. -/
inductive Json where
  | null
  | bool (value : Bool)
  | number (value : JsonNumber)
  | string (value : String)
  | array (items : List Json)
  | object (entries : List (String × Json))
  deriving Repr

namespace Json

mutual
/-- The value with every object sorted by its keys; of a repeated key the last value counts. -/
def sorted : Json → Json
  | .array items => .array (sortedItems items)
  | .object entries => .object (Table.sorted (sortedEntries entries))
  | .null => .null
  | .bool value => .bool value
  | .number value => .number value
  | .string value => .string value

/-- The items with every object sorted. -/
def sortedItems : List Json → List Json
  | [] => []
  | item :: items => item.sorted :: sortedItems items

/-- The entries with every object in their values sorted. -/
def sortedEntries : List (String × Json) → List (String × Json)
  | [] => []
  | (key, value) :: entries => (key, value.sorted) :: sortedEntries entries
end

end Json

end XmlTemplate
