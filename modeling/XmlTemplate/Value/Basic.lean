import XmlTemplate.Decimal.Integer
import XmlTemplate.Value.Table

/-!
# Values

A value is data that a template can be rendered against. It tells records, whose fields are
attributes, from maps, whose entries are keys. Numbers are kept as the text they were written with.
-/

namespace XmlTemplate

/-- Data of a host. -/
inductive Value where
  | null
  | bool (value : Bool)
  /-- A number, as the text it was written with. -/
  | number (text : String)
  | string (text : String)
  | list (items : List Value)
  /-- Entries under keys. -/
  | map (entries : List (String × Value))
  /-- Fields under attribute names. -/
  | record (fields : List (String × Value))
  deriving Repr

namespace Value

/-- A map of entries, in the order of insertion. -/
def mapOf (entries : List (String × Value)) : Value := .map (Table.ofEntries entries)

/-- A record of fields, in the order of insertion. -/
def recordOf (fields : List (String × Value)) : Value := .record (Table.ofEntries fields)

/-! ## Views -/

/-- The value is null. -/
def isNull : Value → Bool
  | .null => true
  | _ => false

/-- The text of a string. -/
def string? : Value → Option String
  | .string text => some text
  | _ => none

/-- The text of a number. -/
def number? : Value → Option String
  | .number text => some text
  | _ => none

/-- The items of a list. -/
def items? : Value → Option (List Value)
  | .list items => some items
  | _ => none

/-- The entries of a map. -/
def entries? : Value → Option (List (String × Value))
  | .map entries => some entries
  | _ => none

/-- The fields of a record. -/
def fields? : Value → Option (List (String × Value))
  | .record fields => some fields
  | _ => none

/-- The value as a number of repetitions. -/
def count? (value : Value) : Option Nat := value.number?.bind (Decimal.natural? Decimal.wordBound)

/-! ## Equality -/

mutual
/-- Two values are equal when their parts are; tables are equal when they have the same keys with
equal values, in whatever order. -/
def same : Value → Value → Bool
  | .null, .null => true
  | .bool a, .bool b => a == b
  | .number a, .number b => a == b
  | .string a, .string b => a == b
  | .list items, .list others => sameItems items others
  | .map entries, .map others => entries.length == others.length && sameEntries entries others
  | .record fields, .record others => fields.length == others.length && sameEntries fields others
  | _, _ => false

/-- Lists are equal item by item. -/
def sameItems : List Value → List Value → Bool
  | [], [] => true
  | item :: items, other :: others => same item other && sameItems items others
  | _, _ => false

/-- Each entry is found in the other table with an equal value. -/
def sameEntries : List (String × Value) → List (String × Value) → Bool
  | [], _ => true
  | (key, value) :: entries, others =>
    (match Table.find? others key with
      | some other => same value other
      | none => false) && sameEntries entries others
end

end Value

end XmlTemplate
