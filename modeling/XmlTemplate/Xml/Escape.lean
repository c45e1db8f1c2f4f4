import XmlTemplate.Text.Bytes

/-!
# Escaping

Character data and attribute values are written with the characters that would change the structure
of the document replaced by entities. Everything else passes through. Character data follows the
rule of quick-xml for partial escaping, which leaves quotes as they are; values have a table of their
own.

Results:
1. `escapeAttribute_eq`: a value is escaped character by character, wherever its first special byte is.
2. `firstSpecial?_eq_some`: the first special byte is where the first special character starts.
-/

namespace XmlTemplate.Xml

/-- A character of character data. -/
def textUnit : Char → List Char
  | '&' => ['&', 'a', 'm', 'p', ';']
  | '<' => ['&', 'l', 't', ';']
  | '>' => ['&', 'g', 't', ';']
  | c => [c]

/-- A character of a value in double quotes. -/
def attributeUnit : Char → List Char
  | '&' => ['&', 'a', 'm', 'p', ';']
  | '<' => ['&', 'l', 't', ';']
  | '>' => ['&', 'g', 't', ';']
  | '"' => ['&', 'q', 'u', 'o', 't', ';']
  | c => [c]

/-- A text as character data. -/
def escapeText (raw : String) : String := String.ofList (raw.toList.flatMap textUnit)

/-- The characters that a value in double quotes does not have as they are. -/
def specials : List Char := ['&', '<', '>', '"']

/-- The offset of the first byte that is a special character. -/
def firstSpecial? (raw : String) : Option Nat :=
  raw.toUTF8.data.toList.findIdx? (specials.map Char.toUInt8).contains

/-- A text as an attribute value in double quotes. What comes before the first special byte is taken
as it is, which is all of the text if there is none. -/
def escapeAttribute (raw : String) : String :=
  match firstSpecial? raw with
  | none => raw
  | some offset =>
    let (front, back) := Text.splitAtByte offset raw.toList
    String.ofList (front ++ back.flatMap attributeUnit)

theorem attributeUnit_of_not_special {c : Char} (plain : c ∉ specials) : attributeUnit c = [c] := by
  unfold attributeUnit
  split <;> first | rfl | simp [specials] at plain

theorem flatMap_attributeUnit_of_plain {chars : List Char} (plain : ∀ c ∈ chars, c ∉ specials) :
    chars.flatMap attributeUnit = chars := by
  induction chars with
  | nil => rfl
  | cons c chars ih =>
    rw [List.flatMap_cons, attributeUnit_of_not_special (plain c (by simp)),
      ih fun other member => plain other (by simp [member]), List.singleton_append]

theorem firstSpecial?_eq (raw : String) :
    firstSpecial? raw = (raw.toList.findIdx? specials.contains).map fun i =>
      (Text.bytes (raw.toList.take i)).length := by
  have ascii : ∀ sign ∈ specials, Text.IsAscii sign := by simp [specials, Text.IsAscii]
  rw [firstSpecial?, Text.toList_toUTF8, Text.findIdx?_bytes ascii]

theorem firstSpecial?_eq_none {raw : String} (none : firstSpecial? raw = none) :
    ∀ c ∈ raw.toList, c ∉ specials := by
  rw [firstSpecial?_eq, Option.map_eq_none_iff] at none
  simpa using none

/-- The first special byte is where the first special character starts. -/
theorem firstSpecial?_eq_some {raw : String} {offset : Nat} (found : firstSpecial? raw = some offset) :
    ∃ front c back, raw.toList = front ++ c :: back ∧ (Text.bytes front).length = offset ∧
      c ∈ specials ∧ ∀ other ∈ front, other ∉ specials := by
  rw [firstSpecial?_eq, Option.map_eq_some_iff] at found
  obtain ⟨i, first, rfl⟩ := found
  obtain ⟨inside, special, before⟩ := List.findIdx?_eq_some_iff_getElem.mp first
  refine ⟨raw.toList.take i, raw.toList[i], raw.toList.drop (i + 1), ?_, rfl,
    by simpa using special, ?_⟩
  · rw [List.getElem_cons_drop, List.take_append_drop]
  · intro other member
    obtain ⟨j, earlier, rfl⟩ := List.mem_take_iff_getElem.mp member
    simpa using before j (by omega)

/-- The characters before the first special one would stay as they are. -/
theorem escapeAttribute_eq (raw : String) :
    escapeAttribute raw = String.ofList (raw.toList.flatMap attributeUnit) := by
  unfold escapeAttribute
  split
  · rename_i none
    rw [flatMap_attributeUnit_of_plain (firstSpecial?_eq_none none), String.ofList_toList]
  · rename_i offset found
    obtain ⟨front, c, back, whole, rfl, -, plain⟩ := firstSpecial?_eq_some found
    rw [whole, Text.splitAtByte_bytes, List.flatMap_append, flatMap_attributeUnit_of_plain plain]

end XmlTemplate.Xml
