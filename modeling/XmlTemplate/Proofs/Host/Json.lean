import XmlTemplate.Host.Host
import XmlTemplate.Proofs.Decimal.ReadBack
import XmlTemplate.Proofs.Value.RoundTrip
import XmlTemplate.Render.Node

/-!
# JSON values and the values they become

A JSON value is rendered as it is, or as the value that it becomes. The two give the same object. At
first sight they differ twice: lists and tables of a value are written with numbers that were read from
their texts, and repetitions are counted by reading a text and not by the number itself.

Results:
1. `numberJson_numberText`: the text of a number becomes the number again.
2. `toJson_ofJson`: the value of a JSON value becomes the JSON value again.
3. `natural?_numberText`: a number counts as many repetitions as its text.
4. `toObject_ofJson`: a JSON value and its value give the same object.
5. `renderTo_ofJson`: every template renders them alike, errors included.
-/

namespace XmlTemplate

open Table (mapValues)

/-! ## Numbers -/

/-- The numbers that a JSON value holds: whole numbers of a machine word and finite numbers of 64 bits. -/
def JsonNumber.IsHeld : JsonNumber → Prop
  | .whole n => (JsonNumber.whole n).IsWord
  | .real x => Decimal.double.Holds x

variable {number : JsonNumber}

/-- The text of a number becomes the number again. -/
theorem Value.numberJson_numberText (held : number.IsHeld) :
    numberJson (Json.numberText number) = .number number := by
  cases number with
  | whole n => exact numberJson_toString held
  | real x =>
    obtain ⟨c, member, mark⟩ := Decimal.mark_mem_write held
    have other : Decimal.isDigit c = false ∧ c ≠ '+' ∧ c ≠ '-' := by
      rcases mark with rfl | rfl <;> decide
    have finite : x.isFinite = true := by
      cases x with
      | nan | infinite negative => exact held.elim
      | finite => rfl
    rw [Json.numberText, numberJson, Decimal.integer?_eq_none member other.1 other.2.1 other.2.2,
      Decimal.natural?_eq_none member other.1 other.2.1, Decimal.read?_write held]
    simp only [finite, if_true]

/-- A number counts as many repetitions as its text. -/
theorem Json.natural?_numberText (held : number.IsHeld) :
    Decimal.natural? Decimal.wordBound (numberText number) = count? number := by
  cases number with
  | whole n =>
    have small : n < Decimal.wordBound := held.2
    rw [numberText, Decimal.natural?_toString, count?]
    simp only [small, and_true]
  | real x =>
    obtain ⟨c, member, mark⟩ := Decimal.mark_mem_write held
    have other : Decimal.isDigit c = false ∧ c ≠ '+' := by
      rcases mark with rfl | rfl <;> decide
    exact Decimal.natural?_eq_none member other.1 other.2

/-! ## Objects -/

theorem Value.toObjects_eq_map (items : List Value) : toObjects items = items.map toObject := by
  induction items with
  | nil => rfl
  | cons item items ih => rw [toObjects, ih, List.map_cons]

theorem Value.namedObjects_eq_mapValues (entries : List (String × Value)) :
    namedObjects entries = mapValues toObject entries := by
  induction entries with
  | nil => rfl
  | cons entry entries ih => exact congrArg _ ih

theorem Json.toObjects_eq_map (items : List Json) : toObjects items = items.map toObject := by
  induction items with
  | nil => rfl
  | cons item items ih => rw [toObjects, ih, List.map_cons]

theorem Json.namedObjects_eq_mapValues (entries : List (String × Json)) :
    namedObjects entries = mapValues toObject entries := by
  induction entries with
  | nil => rfl
  | cons entry entries ih => exact congrArg _ ih

variable {json : Json}

namespace Value

/-- The value of a JSON value becomes the JSON value again. -/
theorem toJson_ofJson (held : json.Valid JsonNumber.IsHeld) : (ofJson json).toJson = json := by
  induction held with
  | null | bool value | string text => rfl
  | number held => exact numberJson_numberText held
  | @array items each ih =>
    rw [ofJson, toJson, ofJsonItems_eq_map, toJsonItems_eq_map, List.map_map]
    exact congrArg Json.array ((List.map_congr_left ih).trans (List.map_id items))
  | object distinct each ih =>
    rw [ofJson_object distinct, toJson, toJsonEntries_eq_mapValues, Table.mapValues_mapValues,
      Table.mapValues_eq_self ih]

/-- A JSON value and the value that it becomes give the same object. -/
theorem toObject_ofJson (held : json.Valid JsonNumber.IsHeld) :
    (ofJson json).toObject = json.toObject := by
  have whole := toJson_ofJson held
  induction held with
  | null | string text => rfl
  | bool value => cases value <;> rfl
  | @number value held =>
    show Object.counting (Decimal.natural? Decimal.wordBound (Json.numberText value)) _ = _
    rw [Json.natural?_numberText held]
    rfl
  | @array items each ih =>
    have objects : toObjects (ofJsonItems items) = Json.toObjects items := by
      rw [toObjects_eq_map, ofJsonItems_eq_map, List.map_map, Json.toObjects_eq_map]
      exact List.map_congr_left fun item member => ih item member (toJson_ofJson (each item member))
    show Object.sequence (toObjects (ofJsonItems items)) (ofJson (.array items)).toJson.compact = _
    rw [objects, whole]
    rfl
  | @object entries distinct each ih =>
    have objects : namedObjects (mapValues ofJson entries) = Json.namedObjects entries := by
      rw [namedObjects_eq_mapValues, Table.mapValues_mapValues, Json.namedObjects_eq_mapValues]
      exact Table.mapValues_congr fun entry member =>
        ih entry member (toJson_ofJson (each entry member))
    rw [ofJson_object distinct] at whole ⊢
    show Object.mapping (namedObjects (mapValues ofJson entries))
      (Value.map (mapValues ofJson entries)).toJson.compact = _
    rw [objects, whole]
    rfl

end Value

/-- Rendering a JSON value and rendering the value that it becomes write the same text into a sink and
have the same result, errors included. -/
theorem Template.renderTo_ofJson (template : Template) (held : json.Valid JsonNumber.IsHeld)
    (sink : Render.Sink) :
    template.renderTo (Host.value (Value.ofJson json)).toObject sink =
      template.renderTo (Host.json json).toObject sink := by
  have same : (Host.value (Value.ofJson json)).toObject = (Host.json json).toObject :=
    Value.toObject_ofJson held
  rw [same]

/-- One tenth and the limits of the machine words, written before an entry is missing. -/
theorem Template.renderTo_ofJson_limits :
    let json : Json := .object [("rate", .number (.real (.finite false 0x1999999999999A (-56)))),
      ("limits", .array [.number (.whole (-9223372036854775808)),
        .number (.whole 18446744073709551615), .null])]
    let template : Template := ⟨[.value .current, .value (.chain .current [.key "missing"])]⟩
    let text := "\x7b\"rate\":0.1,\"limits\":[-9223372036854775808,18446744073709551615,null]\x7d"
    json.Valid JsonNumber.IsHeld ∧
      template.renderTo (Host.value (Value.ofJson json)).toObject (.unbounded "") =
        (.error (.lookup ⟨"?", "missing", .noEntry⟩), .unbounded text) := by
  intro json template text
  have tenth : (JsonNumber.real (.finite false 0x1999999999999A (-56))).IsHeld :=
    show Decimal.double.Has 0x1999999999999A (-56) from
      ⟨by decide, by decide, by decide, by decide, fun _ => by decide⟩
  have least : (JsonNumber.whole (-9223372036854775808)).IsHeld := ⟨by decide, by decide⟩
  have greatest : (JsonNumber.whole 18446744073709551615).IsHeld := ⟨by decide, by decide⟩
  have limits : Json.Valid JsonNumber.IsHeld (.array [.number (.whole (-9223372036854775808)),
      .number (.whole 18446744073709551615), .null]) :=
    .array (by simp [Json.Valid.number least, Json.Valid.number greatest, Json.Valid.null])
  have held : json.Valid JsonNumber.IsHeld :=
    .object (by decide) (by simp [Json.Valid.number tenth, limits])
  have direct : template.renderTo (Host.json json).toObject (.unbounded "") =
      (.error (.lookup ⟨"?", "missing", .noEntry⟩), .unbounded text) := by
    decide +kernel
  exact ⟨held, (template.renderTo_ofJson held _).trans direct⟩

end XmlTemplate
