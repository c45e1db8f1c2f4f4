import XmlTemplate.Decimal.Numeral
import XmlTemplate.Json.Read
import XmlTemplate.Json.Write
import XmlTemplate.Value.Basic

/-!
# Values and JSON

A value is written as JSON with its numbers as JSON numbers where their texts allow it: a whole
number of a machine word, or else a floating-point number. The other way round, the entries of a
JSON object become a map.
-/

namespace XmlTemplate.Value

open Decimal (double)

/-! ## Writing -/

/-- The JSON value of a number text: a whole number with sign, a whole number without, a
floating-point number, which is null if it is not finite, or else the text itself. -/
def numberJson (text : String) : Json :=
  match Decimal.integer? (-(Nat.pow 2 63 : Nat)) ((Nat.pow 2 63 : Nat) - 1) text with
  | some n => .number (.whole n)
  | none =>
    match Decimal.natural? Decimal.wordBound text with
    | some n => .number (.whole n)
    | none =>
      match double.read? text with
      | some x => if x.isFinite then .number (.real x) else .null
      | none => .string text

mutual
/-- The JSON value of a value. -/
def toJson : Value → Json
  | .null => .null
  | .bool value => .bool value
  | .number text => numberJson text
  | .string text => .string text
  | .list items => .array (toJsonItems items)
  | .map entries => .object (toJsonEntries entries)
  | .record fields => .object (toJsonEntries fields)

/-- The JSON values of the items. -/
def toJsonItems : List Value → List Json
  | [] => []
  | item :: items => item.toJson :: toJsonItems items

/-- The entries with their JSON values. -/
def toJsonEntries : List (String × Value) → List (String × Json)
  | [] => []
  | (key, value) :: entries => (key, value.toJson) :: toJsonEntries entries
end

/-- The value as text: scalars as they are, lists and tables as JSON. -/
def text : Value → String
  | .null => ""
  | .bool value => if value then "true" else "false"
  | .number text => text
  | .string text => text
  | value => value.toJson.compact

/-! ## Reading -/

mutual
/-- The value of a JSON value, with numbers as JSON writes them. -/
def ofJson : Json → Value
  | .null => .null
  | .bool value => .bool value
  | .number value => .number (Json.numberText value)
  | .string value => .string value
  | .array items => .list (ofJsonItems items)
  | .object entries => mapOf (ofJsonEntries entries)

/-- The values of the items. -/
def ofJsonItems : List Json → List Value
  | [] => []
  | item :: items => ofJson item :: ofJsonItems items

/-- The entries with their values. -/
def ofJsonEntries : List (String × Json) → List (String × Value)
  | [] => []
  | (key, value) :: entries => (key, ofJson value) :: ofJsonEntries entries
end

/-- A number as plain text, without an exponent. -/
def plainNumber : JsonNumber → String
  | .whole n => toString n
  | .real x => Decimal.asText.write double x

mutual
/-- The value that a JSON value is read as, with numbers as plain text. -/
def decode : Json → Value
  | .null => .null
  | .bool value => .bool value
  | .number value => .number (plainNumber value)
  | .string value => .string value
  | .array items => .list (decodeItems items)
  | .object entries => mapOf (decodeEntries entries)

/-- The values that the items are read as. -/
def decodeItems : List Json → List Value
  | [] => []
  | item :: items => decode item :: decodeItems items

/-- The entries with the values that are read. -/
def decodeEntries : List (String × Json) → List (String × Value)
  | [] => []
  | (key, value) :: entries => (key, decode value) :: decodeEntries entries
end

/-- The value of a JSON text. -/
def parse? (text : String) : Option Value := (Json.parse? text).map decode

end XmlTemplate.Value
