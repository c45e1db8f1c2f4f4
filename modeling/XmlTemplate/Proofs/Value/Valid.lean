import XmlTemplate.Proofs.Json.Valid
import XmlTemplate.Value.Json

/-!
# Values that programs hold

The tables of a value that a program holds have each key once. Which texts its numbers have depends on
where the value comes from, so they are a parameter.

Results:
1. `toJsonItems_eq_map`, `decodeItems_eq_map`, `ofJsonItems_eq_map` and the same for entries: the parts
   of a value go to and from JSON one by one.
2. `decode_object`, `ofJson_object`: an object with each key once becomes a map of its entries.
3. `levels_toJson`: a value and its JSON value are nested alike.
-/

namespace XmlTemplate

namespace Table

variable {α β γ : Type}

/-- The entries with their values changed. -/
def mapValues (f : α → β) (entries : List (String × α)) : List (String × β) :=
  entries.map fun entry => (entry.1, f entry.2)

@[simp] theorem keys_mapValues (f : α → β) (entries : List (String × α)) :
    keys (mapValues f entries) = keys entries := by
  simp [keys, mapValues]

theorem mapValues_mapValues (f : α → β) (g : β → γ) (entries : List (String × α)) :
    mapValues g (mapValues f entries) = mapValues (fun x => g (f x)) entries := by
  simp [mapValues]

theorem mapValues_congr {f g : α → β} {entries : List (String × α)}
    (same : ∀ entry ∈ entries, f entry.2 = g entry.2) : mapValues f entries = mapValues g entries :=
  List.map_congr_left fun entry member => by rw [same entry member]

theorem mapValues_eq_self {f : α → α} {entries : List (String × α)}
    (same : ∀ entry ∈ entries, f entry.2 = entry.2) : mapValues f entries = entries :=
  (mapValues_congr (g := id) same).trans (List.map_id entries)

theorem mem_mapValues {f : α → β} {entries : List (String × α)} {entry : String × β} :
    entry ∈ mapValues f entries ↔ ∃ old ∈ entries, (old.1, f old.2) = entry :=
  List.mem_map

end Table

namespace Value

open Table (mapValues)

/-- Each key stands once in its table, and each number has a text that `fine` allows. -/
inductive Valid (fine : String → Prop) : Value → Prop
  | null : Valid fine .null
  | bool (value : Bool) : Valid fine (.bool value)
  | number {text : String} : fine text → Valid fine (.number text)
  | string (text : String) : Valid fine (.string text)
  | list {items : List Value} : (∀ item ∈ items, Valid fine item) → Valid fine (.list items)
  | map {entries : List (String × Value)} :
      (Table.keys entries).Nodup → (∀ entry ∈ entries, Valid fine entry.2) →
      Valid fine (.map entries)
  | record {fields : List (String × Value)} :
      (Table.keys fields).Nodup → (∀ field ∈ fields, Valid fine field.2) →
      Valid fine (.record fields)

/-! ## Part by part -/

theorem toJsonItems_eq_map (items : List Value) : toJsonItems items = items.map toJson := by
  induction items with
  | nil => rfl
  | cons item items ih => rw [toJsonItems, ih, List.map_cons]

theorem toJsonEntries_eq_mapValues (entries : List (String × Value)) :
    toJsonEntries entries = mapValues toJson entries := by
  induction entries with
  | nil => rfl
  | cons entry entries ih => exact congrArg _ ih

theorem decodeItems_eq_map (items : List Json) : decodeItems items = items.map decode := by
  induction items with
  | nil => rfl
  | cons item items ih => rw [decodeItems, ih, List.map_cons]

theorem decodeEntries_eq_mapValues (entries : List (String × Json)) :
    decodeEntries entries = mapValues decode entries := by
  induction entries with
  | nil => rfl
  | cons entry entries ih => exact congrArg _ ih

theorem ofJsonItems_eq_map (items : List Json) : ofJsonItems items = items.map ofJson := by
  induction items with
  | nil => rfl
  | cons item items ih => rw [ofJsonItems, ih, List.map_cons]

theorem ofJsonEntries_eq_mapValues (entries : List (String × Json)) :
    ofJsonEntries entries = mapValues ofJson entries := by
  induction entries with
  | nil => rfl
  | cons entry entries ih => exact congrArg _ ih

theorem decode_object {entries : List (String × Json)} (distinct : (Table.keys entries).Nodup) :
    decode (.object entries) = .map (mapValues decode entries) := by
  rw [decode, mapOf, decodeEntries_eq_mapValues, Table.ofEntries_of_nodup (by simpa using distinct)]

theorem ofJson_object {entries : List (String × Json)} (distinct : (Table.keys entries).Nodup) :
    ofJson (.object entries) = .map (mapValues ofJson entries) := by
  rw [ofJson, mapOf, ofJsonEntries_eq_mapValues, Table.ofEntries_of_nodup (by simpa using distinct)]

/-! ## Levels -/

mutual
/-- The number of lists, maps and records that stand inside one another. -/
def levels : Value → Nat
  | .list items => levelsOfItems items + 1
  | .map entries => levelsOfEntries entries + 1
  | .record fields => levelsOfEntries fields + 1
  | .null | .bool _ | .number _ | .string _ => 0

/-- The greatest number of levels of the items. -/
def levelsOfItems : List Value → Nat
  | [] => 0
  | item :: items => max item.levels (levelsOfItems items)

/-- The greatest number of levels of the values. -/
def levelsOfEntries : List (String × Value) → Nat
  | [] => 0
  | (_, value) :: entries => max value.levels (levelsOfEntries entries)
end

theorem levels_numberJson (text : String) : (numberJson text).levels = 0 := by
  unfold numberJson
  split
  · rfl
  · split
    · rfl
    · split
      · split <;> rfl
      · rfl

mutual
theorem levels_toJson (value : Value) : value.toJson.levels = value.levels := by
  cases value with
  | null | bool value | string text => rfl
  | number text => exact levels_numberJson text
  | list items => exact congrArg Nat.succ (levelsOfItems_toJson items)
  | map entries => exact congrArg Nat.succ (levelsOfEntries_toJson entries)
  | record fields => exact congrArg Nat.succ (levelsOfEntries_toJson fields)

theorem levelsOfItems_toJson (items : List Value) :
    Json.levelsOfItems (toJsonItems items) = levelsOfItems items := by
  cases items with
  | nil => rfl
  | cons item items =>
    rw [toJsonItems, Json.levelsOfItems, levelsOfItems, levels_toJson item,
      levelsOfItems_toJson items]

theorem levelsOfEntries_toJson (entries : List (String × Value)) :
    Json.levelsOfEntries (toJsonEntries entries) = levelsOfEntries entries := by
  cases entries with
  | nil => rfl
  | cons entry entries =>
    obtain ⟨key, value⟩ := entry
    rw [toJsonEntries, Json.levelsOfEntries, levelsOfEntries, levels_toJson value,
      levelsOfEntries_toJson entries]
end

end Value

end XmlTemplate
