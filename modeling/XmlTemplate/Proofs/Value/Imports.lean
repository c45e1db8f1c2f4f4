import XmlTemplate.Proofs.Decimal.Layouts
import XmlTemplate.Proofs.Value.Valid

/-!
# Two ways from JSON to values

A JSON value becomes a value by conversion or by decoding. Both keep the structure, the strings and the
whole numbers. They part at floating-point numbers: conversion keeps the text that the number has in
JSON, and decoding writes it without an exponent and with a point only in front of a fraction.

Results:
1. `plainNumber_eq_numberText_iff`: the numbers that have one text on both ways.
2. `decode_eq_ofJson_iff`: the JSON values that both ways take to the same value.
3. `decode_one_ne_ofJson`: the number one, written with a fraction, is none of them.
-/

namespace XmlTemplate

/-- Whole numbers, and the numbers of 64 bits that are written alike as text and as JSON. -/
def JsonNumber.WrittenAlike : JsonNumber → Prop
  | .whole _ => True
  | .real (.finite _ significand exponent) => Decimal.WrittenAlike significand exponent
  | .real _ => False

namespace Value

theorem plainNumber_eq_numberText_iff (number : JsonNumber) :
    plainNumber number = Json.numberText number ↔ number.WrittenAlike := by
  cases number with
  | whole n => exact iff_of_true rfl trivial
  | real x =>
    cases x with
    | nan => exact iff_of_false (by decide) id
    | infinite negative => exact iff_of_false (by cases negative <;> decide) id
    | finite negative significand exponent =>
      exact Decimal.write_eq_iff negative significand exponent

/-- Conversion and decoding agree on a JSON value if and only if each number in it is written alike. -/
theorem decode_eq_ofJson_iff {json : Json} (distinct : json.Valid fun _ => True) :
    decode json = ofJson json ↔ json.Valid JsonNumber.WrittenAlike := by
  constructor
  · intro same
    induction distinct with
    | null => exact .null
    | bool value => exact .bool value
    | number _ =>
      injection same with text
      exact .number ((plainNumber_eq_numberText_iff _).mp text)
    | string text => exact .string text
    | array _ ih =>
      rw [decode, ofJson, decodeItems_eq_map, ofJsonItems_eq_map] at same
      injection same with items
      exact .array fun item member => ih item member (List.map_inj_left.mp items item member)
    | object keys _ ih =>
      rw [decode_object keys, ofJson_object keys] at same
      injection same with entries
      refine .object keys fun entry member => ih entry member ?_
      exact congrArg Prod.snd (List.map_inj_left.mp entries entry member)
  · intro alike
    clear distinct
    induction alike with
    | null | bool value | string text => rfl
    | number alike => exact congrArg Value.number ((plainNumber_eq_numberText_iff _).mpr alike)
    | array _ ih =>
      rw [decode, ofJson, decodeItems_eq_map, ofJsonItems_eq_map]
      exact congrArg Value.list (List.map_congr_left ih)
    | object keys _ ih =>
      rw [decode_object keys, ofJson_object keys]
      exact congrArg Value.map (Table.mapValues_congr ih)

/-- A whole number and one with a fraction have the same text on both ways. -/
theorem decode_eq_ofJson_half :
    let json : Json := .object [("whole", .number (.whole 7)),
      ("half", .number (.real (.finite false (3 * 2 ^ 51) (-52))))]
    json.Valid (fun _ => True) ∧ json.Valid JsonNumber.WrittenAlike ∧ decode json = ofJson json := by
  intro json
  have distinct : json.Valid fun _ => True :=
    .object (by decide) (by simp [Json.Valid.number])
  have whole : (JsonNumber.whole 7).WrittenAlike := trivial
  have half : (JsonNumber.real (.finite false (3 * 2 ^ 51) (-52))).WrittenAlike :=
    show Decimal.WrittenAlike _ _ from
      ⟨by decide +kernel, by decide +kernel, by decide +kernel⟩
  have alike : json.Valid JsonNumber.WrittenAlike :=
    .object (by decide) (List.forall_mem_cons.mpr
      ⟨.number whole, List.forall_mem_singleton.mpr (.number half)⟩)
  exact ⟨distinct, alike, (decode_eq_ofJson_iff distinct).mpr alike⟩

/-- The number one, written with a fraction. Decoding drops the fraction and with it makes the text a
number of repetitions; conversion does neither. -/
theorem decode_one_ne_ofJson :
    let one : Json := .number (.real (.finite false (2 ^ 52) (-52)))
    Json.parse? "1.0" = some one ∧ decode one = .number "1" ∧ ofJson one = .number "1.0" ∧
      (decode one).same (ofJson one) = false ∧ (decode one).text ≠ (ofJson one).text ∧
      (decode one).count? = some 1 ∧ (ofJson one).count? = none := by
  intro one
  have read : Json.parse? "1.0" = some one := rfl
  have plain : plainNumber (.real (.finite false (2 ^ 52) (-52))) = "1" := by decide +kernel
  have written : Json.numberText (.real (.finite false (2 ^ 52) (-52))) = "1.0" := by
    decide +kernel
  have decoded : decode one = .number "1" := congrArg Value.number plain
  have converted : ofJson one = .number "1.0" := congrArg Value.number written
  rw [decoded, converted]
  exact ⟨read, rfl, rfl, rfl, by decide, rfl, rfl⟩

end Value

end XmlTemplate
