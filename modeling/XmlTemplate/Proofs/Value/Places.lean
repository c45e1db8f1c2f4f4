import XmlTemplate.Proofs.Value.NumberTexts
import XmlTemplate.Proofs.Value.Tables

/-!
# Places of null

The JSON value of a value has its parts at the same places, and a part is null there if the value has
null at its place. It is also null where the value has a number without a finite number of 64 bits, and
such a number is read back as null.

Results:
1. `at?_toJson`, `at?_decode`: what stands at a place of a value, of its JSON, and of what is read back.
2. `toJson_eq_null_iff`: what becomes null.
3. `null_at_iff`: where null stands.
-/

namespace XmlTemplate

open Decimal (NotFinite)
open Table (mapValues)

/-! ## Places -/

/-- A step from a list or a table to one of its parts. -/
inductive Place where
  | item (index : Nat)
  | entry (key : String)
  deriving DecidableEq, Repr

/-- The part of a JSON value at a place. -/
def Json.part? : Json → Place → Option Json
  | .array items, .item index => items[index]?
  | .object entries, .entry key => Table.find? entries key
  | _, _ => none

/-- What stands in a JSON value at the end of a path. -/
def Json.at? (json : Json) : List Place → Option Json
  | [] => some json
  | place :: path => (json.part? place).bind fun part => part.at? path

/-- The part of a value at a place. -/
def Value.part? : Value → Place → Option Value
  | .list items, .item index => items[index]?
  | .map entries, .entry key => Table.find? entries key
  | .record fields, .entry key => Table.find? fields key
  | _, _ => none

/-- What stands in a value at the end of a path. -/
def Value.at? (value : Value) : List Place → Option Value
  | [] => some value
  | place :: path => (value.part? place).bind fun part => part.at? path

theorem Table.find?_mapValues {α β : Type} (f : α → β) (entries : List (String × α)) (key : String) :
    find? (mapValues f entries) key = (find? entries key).map f := by
  fun_induction find? entries key with
  | case1 => rfl
  | case2 first rest => simp [mapValues, find?]
  | case3 k first rest different ih =>
    rw [← ih]
    simp [mapValues, find?, different]

/-! ## Places of JSON -/

theorem Json.Valid.part {fine : JsonNumber → Prop} {json part : Json} {place : Place}
    (valid : json.Valid fine) (found : json.part? place = some part) : part.Valid fine := by
  cases valid with
  | null | bool | number | string => cases place <;> cases found
  | array each =>
    cases place with
    | item index => exact each part (List.mem_of_getElem? found)
    | entry key => cases found
  | object distinct each =>
    cases place with
    | item index => cases found
    | entry key => exact each (key, part) (Table.mem_of_find? found)

namespace Value

theorem part?_numberJson (text : String) (place : Place) : (numberJson text).part? place = none := by
  have becomes := numberJson_becomes text
  generalize numberJson text = json at becomes
  cases becomes <;> cases place <;> rfl

theorem part?_toJson (value : Value) (place : Place) :
    value.toJson.part? place = (value.part? place).map toJson := by
  cases value with
  | null | bool | string => cases place <;> rfl
  | number text =>
    rw [toJson, part?_numberJson]
    cases place <;> rfl
  | list items =>
    cases place with
    | item index => rw [toJson, toJsonItems_eq_map]; exact List.getElem?_map
    | entry key => rfl
  | map entries | record entries =>
    cases place with
    | item index => rfl
    | entry key => rw [toJson, toJsonEntries_eq_mapValues]; exact Table.find?_mapValues toJson entries key

theorem at?_toJson (value : Value) (path : List Place) :
    value.toJson.at? path = (value.at? path).map toJson := by
  induction path generalizing value with
  | nil => rfl
  | cons place path ih =>
    rw [Json.at?, part?_toJson, at?]
    cases value.part? place with
    | none => rfl
    | some part => exact ih part

theorem part?_decode {fine : JsonNumber → Prop} {json : Json} (valid : json.Valid fine)
    (place : Place) : (decode json).part? place = (json.part? place).map decode := by
  cases valid with
  | null | bool | number | string => cases place <;> rfl
  | array each =>
    cases place with
    | item index => rw [decode, decodeItems_eq_map]; exact List.getElem?_map
    | entry key => rfl
  | object distinct each =>
    rw [decode_object distinct]
    cases place with
    | item index => rfl
    | entry key => exact Table.find?_mapValues decode _ key

theorem at?_decode {fine : JsonNumber → Prop} {json : Json} (valid : json.Valid fine)
    (path : List Place) : (decode json).at? path = (json.at? path).map decode := by
  induction path generalizing json with
  | nil => rfl
  | cons place path ih =>
    rw [at?, part?_decode valid, Json.at?]
    cases found : json.part? place with
    | none => rfl
    | some part => exact ih (valid.part found)

/-! ## Null -/

theorem toJson_eq_null_iff {value : Value} :
    value.toJson = .null ↔ value = .null ∨ ∃ text, value = .number text ∧ NotFinite text := by
  cases value with
  | null => simp [toJson]
  | number text => simp [toJson, numberJson_eq_null_iff]
  | bool | string | list | map | record => simp [toJson]

theorem decode_eq_null_iff {json : Json} : decode json = .null ↔ json = .null := by
  cases json <;> simp [decode, mapOf]

theorem valid_numberJson (text : String) : (numberJson text).Valid fun _ => True := by
  have becomes := numberJson_becomes text
  generalize numberJson text = json at becomes
  cases becomes with
  | whole | real => exact .number trivial
  | null => exact .null
  | string => exact .string text

/-- JSON has null at a place just where the value has null or a number that stands for no finite number
of 64 bits. All of these are null when they are read back, and nothing else is. -/
theorem null_at_iff {value : Value} (valid : value.Valid fun _ => True) (path : List Place) :
    (value.toJson.at? path = some .null ↔
      value.at? path = some .null ∨
        ∃ text, value.at? path = some (.number text) ∧ NotFinite text) ∧
      ((decode value.toJson).at? path = some .null ↔
        value.at? path = some .null ∨
          ∃ text, value.at? path = some (.number text) ∧ NotFinite text) := by
  have written : value.toJson.at? path = some .null ↔
      value.at? path = some .null ∨
        ∃ text, value.at? path = some (.number text) ∧ NotFinite text := by
    rw [at?_toJson]
    cases value.at? path with
    | none => simp
    | some part => simp [toJson_eq_null_iff]
  refine ⟨written, ?_⟩
  have held : value.toJson.Valid fun _ => True :=
    valid_toJson_of (fun text _ => valid_numberJson text) valid
  rw [← written, at?_decode held]
  cases value.toJson.at? path with
  | none => simp
  | some part => simp [decode_eq_null_iff]

/-- A number beyond the range and a word, next to null itself. -/
theorem null_at_large :
    let value : Value :=
      .record [("a", .list [.number "-1e400", .null, .map [("b", .number "-INFinity")]])]
    let large := [Place.entry "a", .item 0]
    let word := [Place.entry "a", .item 2, .entry "b"]
    value.Valid (fun _ => True) ∧
      value.toJson.at? large = some .null ∧ value.at? large = some (.number "-1e400") ∧
      (decode value.toJson).at? word = some .null ∧
      value.at? word = some (.number "-INFinity") := by
  intro value large word
  have number (text : String) : (Value.number text).Valid fun _ => True := .number trivial
  have inner : (Value.map [("b", .number "-INFinity")]).Valid fun _ => True :=
    .map (by decide) (List.forall_mem_singleton.mpr (number _))
  have valid : value.Valid fun _ => True :=
    .record (by decide) (List.forall_mem_singleton.mpr (.list (by simp [number, Valid.null, inner])))
  have lost : NotFinite "-1e400" ∧ NotFinite "-INFinity" :=
    ⟨Decimal.notFinite_iff.mpr ⟨.infinite true, by decide +kernel, rfl⟩, .word (by decide)⟩
  have at_large : value.at? large = some (.number "-1e400") := rfl
  have at_word : value.at? word = some (.number "-INFinity") := rfl
  exact ⟨valid, (null_at_iff valid large).1.mpr (.inr ⟨_, at_large, lost.1⟩), at_large,
    (null_at_iff valid word).2.mpr (.inr ⟨_, at_word, lost.2⟩), at_word⟩

/-- A list that holds a number and no null has null in its JSON, and is read back with null in it. -/
theorem null_at_nan :
    let value : Value := .list [.number "nan"]
    value.at? [.item 0] = some (.number "nan") ∧ value.toJson.at? [.item 0] = some .null ∧
      value.toJson.compact = "[null]" ∧ parse? "[null]" = some (.list [.null]) := by
  intro value
  have null : numberJson "nan" = .null := numberJson_eq_null_iff.mpr (.word (by decide))
  have json : value.toJson = .array [.null] := by
    simp only [value, toJson, toJsonItems, null]
  refine ⟨rfl, ?_, ?_, ?_⟩
  · rw [json]
    rfl
  · rw [json]
    rfl
  · rfl

end Value

end XmlTemplate
