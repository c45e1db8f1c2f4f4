import XmlTemplate.Proofs.Json.RoundTrip
import XmlTemplate.Proofs.Value.Valid

/-!
# Values that are written and read again

A value whose numbers are whole numbers of a machine word survives its JSON text. Only the difference
between records and maps is lost, since both are written as objects and objects are read as maps.

Results:
1. `numberJson_toString`: the text of a whole number becomes this number.
2. `valid_toJson_of`, `valid_toJson`: a value becomes JSON, and such a value JSON with whole numbers.
3. `decode_toJson`: reading gives the value back with its records as maps.
4. `parse?_toJson`: so does reading its text.
-/

namespace XmlTemplate.Value

open Table (mapValues)

/-! ## Records as maps -/

mutual
/-- The value with every record in it as a map. -/
def withMaps : Value → Value
  | .list items => .list (withMapsItems items)
  | .map entries => .map (withMapsEntries entries)
  | .record fields => .map (withMapsEntries fields)
  | .null => .null
  | .bool value => .bool value
  | .number text => .number text
  | .string text => .string text

/-- The items with every record in them as a map. -/
def withMapsItems : List Value → List Value
  | [] => []
  | item :: items => item.withMaps :: withMapsItems items

/-- The entries with every record in their values as a map. -/
def withMapsEntries : List (String × Value) → List (String × Value)
  | [] => []
  | (key, value) :: entries => (key, value.withMaps) :: withMapsEntries entries
end

theorem withMapsItems_eq_map (items : List Value) : withMapsItems items = items.map withMaps := by
  induction items with
  | nil => rfl
  | cons item items ih => rw [withMapsItems, ih, List.map_cons]

theorem withMapsEntries_eq_mapValues (entries : List (String × Value)) :
    withMapsEntries entries = mapValues withMaps entries := by
  induction entries with
  | nil => rfl
  | cons entry entries ih => exact congrArg _ ih

/-! ## Whole numbers -/

/-- The text of a whole number of a machine word, with or without sign. -/
def IsWordText (text : String) : Prop :=
  ∃ n : Int, (JsonNumber.whole n).IsWord ∧ text = toString n

/-- The text of a whole number is read with a sign if it fits, and without a sign otherwise. -/
theorem numberJson_toString {n : Int} (word : (JsonNumber.whole n).IsWord) :
    numberJson (toString n) = .number (.whole n) := by
  obtain ⟨low, high⟩ := word
  rw [numberJson, Decimal.integer?_toString]
  by_cases signed : n ≤ (Nat.pow 2 63 : Nat) - 1
  · rw [if_pos ⟨low, signed⟩]
  · have positive : 0 ≤ n := by omega
    have unsigned : Decimal.natural? Decimal.wordBound (toString n) = some n.toNat := by
      rw [Decimal.natural?_toString, if_pos ⟨positive, high⟩]
    rw [if_neg fun both => signed both.2, unsigned]
    simp only [Int.toNat_of_nonneg positive]

/-! ## Writing and reading -/

variable {value : Value}

/-- A value becomes JSON that programs hold if each of its number texts does. -/
theorem valid_toJson_of {fine : String → Prop} {ok : JsonNumber → Prop}
    (number : ∀ text, fine text → (numberJson text).Valid ok) (valid : value.Valid fine) :
    value.toJson.Valid ok := by
  have valid_entries {entries : List (String × Value)} (distinct : (Table.keys entries).Nodup)
      (each : ∀ entry ∈ entries, entry.2.toJson.Valid ok) :
      (Json.object (toJsonEntries entries)).Valid ok := by
    rw [toJsonEntries_eq_mapValues]
    refine .object (by simpa using distinct) fun entry member => ?_
    obtain ⟨old, here, rfl⟩ := Table.mem_mapValues.mp member
    exact each old here
  induction valid with
  | null => exact .null
  | bool value => exact .bool value
  | number fine => exact number _ fine
  | string text => exact .string text
  | list each ih =>
    rw [toJson, toJsonItems_eq_map]
    refine .array fun item member => ?_
    obtain ⟨old, here, rfl⟩ := List.mem_map.mp member
    exact ih old here
  | map distinct each ih => exact valid_entries distinct ih
  | record distinct each ih => exact valid_entries distinct ih

theorem valid_toJson (valid : value.Valid IsWordText) : value.toJson.Valid JsonNumber.IsWord := by
  refine valid_toJson_of ?_ valid
  rintro _ ⟨n, word, rfl⟩
  rw [numberJson_toString word]
  exact .number word

theorem decode_toJson (valid : value.Valid IsWordText) : decode value.toJson = value.withMaps := by
  have decode_entries {entries : List (String × Value)} (distinct : (Table.keys entries).Nodup)
      (each : ∀ entry ∈ entries, decode entry.2.toJson = entry.2.withMaps) :
      decode (.object (toJsonEntries entries)) = .map (withMapsEntries entries) := by
    rw [toJsonEntries_eq_mapValues, decode_object (by simpa using distinct),
      withMapsEntries_eq_mapValues, Table.mapValues_mapValues, Table.mapValues_congr each]
  induction valid with
  | null | bool value | string text => rfl
  | number word =>
    obtain ⟨n, word, rfl⟩ := word
    rw [toJson, numberJson_toString word]
    rfl
  | list each ih =>
    rw [toJson, decode, decodeItems_eq_map, toJsonItems_eq_map, List.map_map, withMaps,
      withMapsItems_eq_map]
    exact congrArg Value.list (List.map_congr_left ih)
  | map distinct each ih => exact decode_entries distinct ih
  | record distinct each ih => exact decode_entries distinct ih

/-- A value whose numbers are whole numbers of a machine word, and which is not nested too deeply, is
read from its JSON text as it was, in the order it had, with its records as maps. -/
theorem parse?_toJson (valid : value.Valid IsWordText) (within : value.levels ≤ 127) :
    parse? value.toJson.compact = some value.withMaps := by
  have read : Json.parse? value.toJson.compact = some value.toJson :=
    Json.parse?_compact (valid_toJson valid) (by rw [levels_toJson]; exact within)
  rw [parse?, read, Option.map_some, decode_toJson valid]

/-- The greatest and the least number, and characters that are escaped. -/
theorem parse?_toJson_limits :
    let items : Value := .list [.number "-9223372036854775808", .string "\"\\\n\x01", .null]
    let value : Value := .record [("id", .number "18446744073709551615"), ("a\tb", items)]
    let text := "\x7b\"id\":18446744073709551615,\"a\\tb\":[-9223372036854775808,\"\\\"\\\\\\n\\u0001\",null]\x7d"
    value.Valid IsWordText ∧ value.levels ≤ 127 ∧ value.toJson.compact = text ∧
      parse? text = some (.map [("id", .number "18446744073709551615"), ("a\tb", items)]) := by
  intro items value text
  have least : IsWordText "-9223372036854775808" :=
    ⟨-9223372036854775808, ⟨by decide, by decide⟩, by decide +kernel⟩
  have greatest : IsWordText "18446744073709551615" :=
    ⟨18446744073709551615, ⟨by decide, by decide⟩, by decide +kernel⟩
  have validItems : items.Valid IsWordText :=
    .list (by simp [Valid.number least, Valid.string, Valid.null])
  have valid : value.Valid IsWordText :=
    .record (by decide) (by simp [Valid.number greatest, validItems])
  have within : value.levels ≤ 127 := by decide
  have written : value.toJson.compact = text := by decide +kernel
  have read := parse?_toJson valid within
  rw [written] at read
  exact ⟨valid, within, written, read⟩

end XmlTemplate.Value
