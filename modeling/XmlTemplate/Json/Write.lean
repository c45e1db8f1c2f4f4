import XmlTemplate.Decimal.Layout
import XmlTemplate.Json.Basic

/-!
# Writing JSON texts

A value is written without spaces. Strings escape quotes, backslashes and control characters only. The
definitions stand for the compact writer of serde_json and follow its rules for which characters are
escaped and how, and for the text of a number.

Results:
1. `compact_array`, `compact_object`: arrays and objects have commas between their parts.
-/

namespace XmlTemplate.Json

/-- The spelling of a character in a string. -/
def unit (c : Char) : List Char :=
  if c = '"' ∨ c = '\\' then ['\\', c]
  else if c = '\n' then ['\\', 'n']
  else if c = '\r' then ['\\', 'r']
  else if c = '\t' then ['\\', 't']
  else if c = Char.ofNat 8 then ['\\', 'b']
  else if c = Char.ofNat 12 then ['\\', 'f']
  else if c.toNat < 0x20 then
    ['\\', 'u', '0', '0', Nat.digitChar (c.toNat / 16), Nat.digitChar (c.toNat % 16)]
  else [c]

/-- A string between its quotes. -/
def quoted (text : String) : String :=
  String.ofList ('"' :: (text.toList.flatMap unit ++ ['"']))

/-- A number. -/
def numberText : JsonNumber → String
  | .whole n => toString n
  | .real x => Decimal.asJson.write Decimal.double x

mutual
/-- The text of a value. -/
def compact : Json → String
  | .null => "null"
  | .bool value => if value then "true" else "false"
  | .number value => numberText value
  | .string value => quoted value
  | .array items => "[" ++ ",".intercalate (compactItems items) ++ "]"
  | .object entries => "\x7b" ++ ",".intercalate (compactEntries entries) ++ "\x7d"

/-- The texts of the items. -/
def compactItems : List Json → List String
  | [] => []
  | item :: items => item.compact :: compactItems items

/-- The texts of the entries. -/
def compactEntries : List (String × Json) → List String
  | [] => []
  | (key, value) :: entries => (quoted key ++ ":" ++ value.compact) :: compactEntries entries
end

@[simp] theorem compact_array (items : List Json) :
    (array items).compact = "[" ++ ",".intercalate (compactItems items) ++ "]" := rfl

@[simp] theorem compact_object (entries : List (String × Json)) :
    (object entries).compact = "\x7b" ++ ",".intercalate (compactEntries entries) ++ "\x7d" := rfl

end XmlTemplate.Json
