import XmlTemplate.Decimal.Integer
import XmlTemplate.Json.Write

/-!
# JSON values that programs hold

A program that holds a JSON value has each key of an object once. Which numbers it can hold depends on
where the value comes from, so they are a parameter.

Results:
1. `compactItems_eq_map`, `compactEntries_eq_map`: the parts are written one by one.
2. `levels_item_le`, `levels_entry_le`: parts are not nested deeper than the whole.
-/

namespace XmlTemplate

/-- A whole number of a machine word, with or without sign. -/
def JsonNumber.IsWord : JsonNumber → Prop
  | .whole n => -(Nat.pow 2 63 : Nat) ≤ n ∧ n < Decimal.wordBound
  | .real _ => False

namespace Json

/-- Each key stands once in its object, and each number is one that `fine` allows. -/
inductive Valid (fine : JsonNumber → Prop) : Json → Prop
  | null : Valid fine .null
  | bool (value : Bool) : Valid fine (.bool value)
  | number {value : JsonNumber} : fine value → Valid fine (.number value)
  | string (text : String) : Valid fine (.string text)
  | array {items : List Json} : (∀ item ∈ items, Valid fine item) → Valid fine (.array items)
  | object {entries : List (String × Json)} :
      (Table.keys entries).Nodup → (∀ entry ∈ entries, Valid fine entry.2) →
      Valid fine (.object entries)

/-! ## Levels -/

mutual
/-- The number of arrays and objects that stand inside one another. -/
def levels : Json → Nat
  | .array items => levelsOfItems items + 1
  | .object entries => levelsOfEntries entries + 1
  | .null | .bool _ | .number _ | .string _ => 0

/-- The greatest number of levels of the items. -/
def levelsOfItems : List Json → Nat
  | [] => 0
  | item :: items => max item.levels (levelsOfItems items)

/-- The greatest number of levels of the values. -/
def levelsOfEntries : List (String × Json) → Nat
  | [] => 0
  | (_, value) :: entries => max value.levels (levelsOfEntries entries)
end

theorem levels_item_le {items : List Json} {item : Json} (member : item ∈ items) :
    item.levels ≤ levelsOfItems items := by
  induction items with
  | nil => cases member
  | cons first items ih =>
    rw [levelsOfItems]
    rcases List.mem_cons.mp member with rfl | later
    · exact Nat.le_max_left ..
    · exact Nat.le_trans (ih later) (Nat.le_max_right ..)

theorem levels_entry_le {entries : List (String × Json)} {entry : String × Json}
    (member : entry ∈ entries) : entry.2.levels ≤ levelsOfEntries entries := by
  induction entries with
  | nil => cases member
  | cons first entries ih =>
    rw [levelsOfEntries]
    rcases List.mem_cons.mp member with rfl | later
    · exact Nat.le_max_left ..
    · exact Nat.le_trans (ih later) (Nat.le_max_right ..)

/-! ## Writing -/

theorem compactItems_eq_map (items : List Json) : compactItems items = items.map compact := by
  induction items with
  | nil => rfl
  | cons item items ih => rw [compactItems, ih, List.map_cons]

theorem compactEntries_eq_map (entries : List (String × Json)) :
    compactEntries entries = entries.map fun entry => quoted entry.1 ++ ":" ++ entry.2.compact := by
  induction entries with
  | nil => rfl
  | cons entry entries ih => rw [compactEntries, ih, List.map_cons]

end Json

end XmlTemplate
