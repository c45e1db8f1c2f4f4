import XmlTemplate.Proofs.Xml.Fragment

/-!
# Escaped texts

Character data and attribute values are escaped in two styles: one goes through the characters, the
other one looks for a byte first. Both write a unit for each character, which is the character itself
or an entity that stands for it. So whatever a text is, it is read back from what is written, and
nothing that is written is taken for markup.

Results:
1. `unescapeFrom_unit`: a unit is read as its character.
2. `escaping_of_units`: writing units loses nothing and is safe.
3. `flatMap_quoteUnit`: character data and values differ in double quotes only.
4. `escaping_lossless`: both ways of escaping lose nothing and are safe, and how they differ.
-/

namespace XmlTemplate.Xml

open Reader (data? entity?)

/-! ## Reading -/

/-- The characters that data stands for, from inside a reference or not. -/
def unescapeFrom : Option (List Char) → List Char → Option (List Char)
  | none, [] => some []
  | some _, [] => none
  | reference, c :: chars =>
    (data? reference c).bind fun (reference, found) =>
      (unescapeFrom reference chars).map (found ++ ·)

/-- The text that escaped data stands for. Nothing but the four entities is a reference, and each of
them has to be complete. -/
def unescape? (escaped : String) : Option String :=
  (unescapeFrom none escaped.toList).map String.ofList

/-- A way of escaping is undone by reading, it leaves no sign as it is and no ampersand that does not
start an entity, and it does not matter where a text is cut. -/
structure Escaping (signs : List Char) (escape : String → String) : Prop where
  undone : ∀ raw, unescape? (escape raw) = some raw
  absent : ∀ raw, ∀ sign ∈ signs, sign ∉ (escape raw).toList
  references : ∀ raw front back, (escape raw).toList = front ++ '&' :: back →
    ∃ name c rest, entity? name = some c ∧ back = name ++ ';' :: rest
  append : ∀ left right, escape (left ++ right) = escape left ++ escape right

/-! ## Units -/

/-- What is written for a character: the character, if it is no sign, or an entity. -/
inductive UnitOf (signs : List Char) (c : Char) : List Char → Prop
  | plain : c ≠ '&' → c ∉ signs → UnitOf signs c [c]
  | entity {name : List Char} : entity? name = some c → UnitOf signs c ('&' :: (name ++ [';']))

theorem entity?_eq_some {name : List Char} {c : Char} (named : entity? name = some c) :
    name = ['a', 'm', 'p'] ∧ c = '&' ∨ name = ['l', 't'] ∧ c = '<' ∨ name = ['g', 't'] ∧ c = '>' ∨
      name = ['q', 'u', 'o', 't'] ∧ c = '"' := by
  unfold entity? at named
  split at named <;> cases named <;> simp

theorem unitOf_textUnit (c : Char) : UnitOf ['<', '>'] c (textUnit c) := by
  unfold textUnit
  split
  · exact @UnitOf.entity _ _ ['a', 'm', 'p'] rfl
  · exact @UnitOf.entity _ _ ['l', 't'] rfl
  · exact @UnitOf.entity _ _ ['g', 't'] rfl
  · rename_i amp less greater
    exact .plain amp (by simpa using ⟨less, greater⟩)

theorem textUnit_of_plain {c : Char} (amp : c ≠ '&') (less : c ≠ '<') (greater : c ≠ '>') :
    textUnit c = [c] := by
  unfold textUnit
  split
  · exact absurd rfl amp
  · exact absurd rfl less
  · exact absurd rfl greater
  · rfl

/-- The two tables differ in double quotes only. -/
theorem attributeUnit_of_ne {c : Char} (other : c ≠ '"') : attributeUnit c = textUnit c := by
  unfold attributeUnit
  split
  · rfl
  · rfl
  · rfl
  · exact absurd rfl other
  · rename_i amp less greater _
    exact (textUnit_of_plain amp less greater).symm

theorem unitOf_attributeUnit (c : Char) : UnitOf ['<', '>', '"'] c (attributeUnit c) := by
  by_cases quote : c = '"'
  · rw [quote]
    exact @UnitOf.entity _ _ ['q', 'u', 'o', 't'] rfl
  · have unit := unitOf_textUnit c
    rw [attributeUnit_of_ne quote]
    generalize textUnit c = chars at unit
    cases unit with
    | plain amp absent => exact .plain amp (by simpa [quote] using absent)
    | entity named => exact .entity named

section
variable {signs : List Char} {c : Char} {chars : List Char}

/-- Reading takes a unit and gives its character. -/
theorem unescapeFrom_unit (less : '<' ∈ signs) (greater : '>' ∈ signs) (unit : UnitOf signs c chars)
    (rest : List Char) :
    unescapeFrom none (chars ++ rest) = (unescapeFrom none rest).map (c :: ·) := by
  cases unit with
  | plain amp absent =>
    have read := Reader.data?_plain amp (fun same => absent (same ▸ less))
      (fun same => absent (same ▸ greater))
    simp [unescapeFrom, read]
  | entity named =>
    rcases entity?_eq_some named with ⟨rfl, rfl⟩ | ⟨rfl, rfl⟩ | ⟨rfl, rfl⟩ | ⟨rfl, rfl⟩ <;>
      simp [unescapeFrom, data?, entity?, Function.comp_def]

theorem not_mem_unit (markup : ∀ sign ∈ signs, sign ∈ ['<', '>', '"']) (unit : UnitOf signs c chars)
    {sign : Char} (member : sign ∈ signs) : sign ∉ chars := by
  cases unit with
  | plain amp absent =>
    rw [List.mem_singleton]
    rintro rfl
    exact absent member
  | entity named =>
    have listed := markup sign member
    simp only [List.mem_cons, List.not_mem_nil, or_false] at listed
    rcases entity?_eq_some named with ⟨rfl, -⟩ | ⟨rfl, -⟩ | ⟨rfl, -⟩ | ⟨rfl, -⟩ <;>
      rcases listed with rfl | rfl | rfl <;> decide

/-- An ampersand in a unit is its first character, and the rest of the unit is a name with its end. -/
theorem ampersand_of_unit (unit : UnitOf signs c chars) {front back : List Char}
    (split : chars = front ++ '&' :: back) :
    ∃ name, entity? name = some c ∧ back = name ++ [';'] := by
  cases unit with
  | plain amp absent =>
    have only : '&' ∈ [c] := split ▸ List.mem_append_right front (List.mem_cons_self ..)
    exact absurd (List.mem_singleton.mp only).symm amp
  | @entity name named =>
    have others : '&' ∉ name ++ [';'] := by
      rcases entity?_eq_some named with ⟨rfl, -⟩ | ⟨rfl, -⟩ | ⟨rfl, -⟩ | ⟨rfl, -⟩ <;> decide
    cases front with
    | nil =>
      obtain ⟨-, rfl⟩ := List.cons.inj split
      exact ⟨name, named, rfl⟩
    | cons first front =>
      obtain ⟨-, rest⟩ := List.cons.inj split
      exact absurd (rest ▸ List.mem_append_right front (List.mem_cons_self ..)) others

end

/-! ## Texts -/

section
variable {signs : List Char} {unit : Char → List Char}

theorem unescapeFrom_units (less : '<' ∈ signs) (greater : '>' ∈ signs)
    (each : ∀ c, UnitOf signs c (unit c)) (raw : List Char) :
    unescapeFrom none (raw.flatMap unit) = some raw := by
  induction raw with
  | nil => rfl
  | cons c raw ih =>
    rw [List.flatMap_cons, unescapeFrom_unit less greater (each c), ih, Option.map_some]

theorem ampersand_of_units (each : ∀ c, UnitOf signs c (unit c)) {raw front back : List Char}
    (split : raw.flatMap unit = front ++ '&' :: back) :
    ∃ name c rest, entity? name = some c ∧ back = name ++ ';' :: rest := by
  induction raw generalizing front with
  | nil => simp at split
  | cons c raw ih =>
    rw [List.flatMap_cons] at split
    rcases List.append_eq_append_iff.mp split with ⟨more, -, later⟩ | ⟨part, here, later⟩
    · exact ih later
    cases part with
    | nil => exact @ih [] later.symm
    | cons first part =>
      obtain ⟨rfl, rfl⟩ := List.cons.inj later
      obtain ⟨name, named, rfl⟩ := ampersand_of_unit (each c) here
      exact ⟨name, c, raw.flatMap unit, named, by simp⟩

/-- A text that is written unit by unit is read back and has no sign as it is. -/
theorem escaping_of_units (less : '<' ∈ signs) (greater : '>' ∈ signs)
    (markup : ∀ sign ∈ signs, sign ∈ ['<', '>', '"']) (each : ∀ c, UnitOf signs c (unit c)) :
    Escaping signs fun raw => String.ofList (raw.toList.flatMap unit) where
  undone raw := by
    rw [unescape?, String.toList_ofList, unescapeFrom_units less greater each, Option.map_some,
      String.ofList_toList]
  absent raw sign member := by
    rw [String.toList_ofList, List.mem_flatMap]
    rintro ⟨c, -, inside⟩
    exact not_mem_unit markup (each c) member inside
  references raw front back split := by
    rw [String.toList_ofList] at split
    exact ampersand_of_units each split
  append left right := by
    rw [String.toList_append, List.flatMap_append, String.ofList_append]

end

theorem escaping_escapeText : Escaping ['<', '>'] escapeText :=
  escaping_of_units (by simp) (by simp) (by simp) unitOf_textUnit

theorem escaping_escapeAttribute : Escaping ['<', '>', '"'] escapeAttribute := by
  have values : escapeAttribute = fun raw => String.ofList (raw.toList.flatMap attributeUnit) :=
    funext escapeAttribute_eq
  rw [values]
  exact escaping_of_units (by simp) (by simp) (by simp) unitOf_attributeUnit

/-! ## Double quotes -/

/-- A double quote as its entity, and any other character as it is. -/
def quoteUnit : Char → List Char
  | '"' => ['&', 'q', 'u', 'o', 't', ';']
  | c => [c]

theorem quoteUnit_of_ne {c : Char} (other : c ≠ '"') : quoteUnit c = [c] := by
  unfold quoteUnit
  split
  · exact absurd rfl other
  · rfl

theorem flatMap_quoteUnit (c : Char) : (textUnit c).flatMap quoteUnit = attributeUnit c := by
  by_cases quote : c = '"'
  · rw [quote]
    rfl
  · rw [attributeUnit_of_ne quote]
    -- none of the entities of character data has a double quote
    unfold textUnit
    split
    · rfl
    · rfl
    · rfl
    · rw [List.flatMap_singleton, quoteUnit_of_ne quote]

/-- Whatever a text is, it is read back from what is written for it as character data or as a value.
Both leave no sign as it is and no ampersand outside of an entity, and it does not matter where a text
is cut. A value has an entity where character data has a double quote, and nothing else differs. That
a value is taken as it is up to its first special byte makes no difference: this byte is a special
character of the text, the first one, and before it the text is cut between two characters. -/
theorem escaping_lossless :
    Escaping ['<', '>'] escapeText ∧ Escaping ['<', '>', '"'] escapeAttribute ∧
    (∀ raw, escapeAttribute raw = String.ofList ((escapeText raw).toList.flatMap quoteUnit)) ∧
    (∀ raw, escapeAttribute raw = String.ofList (raw.toList.flatMap attributeUnit)) ∧
    ∀ raw offset, firstSpecial? raw = some offset →
      ∃ front c back, raw.toList = front ++ c :: back ∧ (Text.bytes front).length = offset ∧
        c ∈ specials ∧ ∀ other ∈ front, other ∉ specials := by
  refine ⟨escaping_escapeText, escaping_escapeAttribute, ?_, escapeAttribute_eq,
    fun raw offset => firstSpecial?_eq_some⟩
  intro raw
  rw [escapeAttribute_eq, escapeText, String.toList_ofList, List.flatMap_assoc]
  congr 2
  exact funext fun c => (flatMap_quoteUnit c).symm

/-- A text with a letter of two bytes in front of its first special character, and with an entity that is
text. -/
theorem escaping_lossless_entity :
    let raw := "é\"&lt;"
    escapeAttribute raw = "é&quot;&amp;lt;" ∧ unescape? (escapeAttribute raw) = some raw ∧
      firstSpecial? raw = some 2 ∧
      ∃ front c back, raw.toList = front ++ c :: back ∧ (Text.bytes front).length = 2 ∧
        c ∈ specials ∧ ∀ other ∈ front, other ∉ specials := by
  have escaped : escapeAttribute "é\"&lt;" = "é&quot;&amp;lt;" := by rfl
  have offset : firstSpecial? "é\"&lt;" = some 2 := by rfl
  obtain ⟨-, values, -, -, place⟩ := escaping_lossless
  exact ⟨escaped, values.undone _, offset, place _ 2 offset⟩

end XmlTemplate.Xml
