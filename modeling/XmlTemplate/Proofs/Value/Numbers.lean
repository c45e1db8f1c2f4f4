import XmlTemplate.Proofs.Value.NumberTexts

/-!
# Numbers inside of lists and tables

A list or a table is written as JSON, with a text for each number in it. This text is not always the
text of the number: it stays just if it is the text of a whole number of a machine word or the
shortest text of a floating-point number. The texts of the numbers can be told from the text of the
whole, since none of them has a comma or a closing bracket.

Results:
1. `compact_toJson`: what a value is written as.
2. `compactWith_eq_iff`: two ways to write the numbers agree only if they agree on each number.
3. `text_numbers`: which numbers a list or a table shows as they are.
-/

namespace XmlTemplate.Value

open Decimal (IsJsonNumber NotFinite)

/-! ## Texts of values -/

mutual
/-- The number texts of a value, in the order of their positions. -/
def numbers : Value → List String
  | .number text => [text]
  | .list items => numbersOfItems items
  | .map entries => numbersOfEntries entries
  | .record fields => numbersOfEntries fields
  | .null | .bool _ | .string _ => []

/-- The number texts of the items. -/
def numbersOfItems : List Value → List String
  | [] => []
  | item :: items => item.numbers ++ numbersOfItems items

/-- The number texts of the values. -/
def numbersOfEntries : List (String × Value) → List String
  | [] => []
  | (_, value) :: entries => value.numbers ++ numbersOfEntries entries
end

mutual
/-- The JSON text of a value, with a text for each number text. -/
def compactWith (shown : String → String) : Value → String
  | .null => "null"
  | .bool value => if value then "true" else "false"
  | .number text => shown text
  | .string text => Json.quoted text
  | .list items => "[" ++ ",".intercalate (compactItemsWith shown items) ++ "]"
  | .map entries => "\x7b" ++ ",".intercalate (compactEntriesWith shown entries) ++ "\x7d"
  | .record fields => "\x7b" ++ ",".intercalate (compactEntriesWith shown fields) ++ "\x7d"

/-- The texts of the items. -/
def compactItemsWith (shown : String → String) : List Value → List String
  | [] => []
  | item :: items => item.compactWith shown :: compactItemsWith shown items

/-- The texts of the entries. -/
def compactEntriesWith (shown : String → String) : List (String × Value) → List String
  | [] => []
  | (key, value) :: entries =>
    (Json.quoted key ++ ":" ++ value.compactWith shown) :: compactEntriesWith shown entries
end

/-- A list, a map or a record. -/
inductive Composite : Value → Prop
  | list (items : List Value) : Composite (.list items)
  | map (entries : List (String × Value)) : Composite (.map entries)
  | record (fields : List (String × Value)) : Composite (.record fields)

theorem Composite.text_eq {value : Value} (composite : value.Composite) :
    value.text = value.toJson.compact := by
  cases composite <;> rfl

mutual
theorem compact_toJson (value : Value) : value.toJson.compact = value.compactWith shownNumber := by
  cases value with
  | null | bool value | number text | string text => rfl
  | list items => rw [toJson, Json.compact, compactWith, compactItems_toJson items]
  | map entries => rw [toJson, Json.compact, compactWith, compactEntries_toJson entries]
  | record fields => rw [toJson, Json.compact, compactWith, compactEntries_toJson fields]

theorem compactItems_toJson (items : List Value) :
    Json.compactItems (toJsonItems items) = compactItemsWith shownNumber items := by
  cases items with
  | nil => rfl
  | cons item items =>
    rw [toJsonItems, Json.compactItems, compactItemsWith, compact_toJson item,
      compactItems_toJson items]

theorem compactEntries_toJson (entries : List (String × Value)) :
    Json.compactEntries (toJsonEntries entries) = compactEntriesWith shownNumber entries := by
  cases entries with
  | nil => rfl
  | cons entry entries =>
    obtain ⟨key, value⟩ := entry
    rw [toJsonEntries, Json.compactEntries, compactEntriesWith, compact_toJson value,
      compactEntries_toJson entries]
end

/-! ## Telling numbers apart -/

/-- The characters that end a number in a list or a table. -/
def closing : List Char := [',', ']', '\x7d']

/-- A text that no closing character ends early. -/
def Unclosed (text : List Char) : Prop := ∀ c ∈ text, c ∉ closing

/-- Nothing, or a text with a closing character at its beginning. -/
def Closes (rest : List Char) : Prop := ∀ c, rest.head? = some c → c ∈ closing

theorem closes_cons {c : Char} (closing : c ∈ closing) (rest : List Char) : Closes (c :: rest) := by
  rintro _ ⟨⟩
  exact closing

/-- A text up to a closing character is known from the whole. -/
theorem eq_of_append_eq {left right rest other : List Char} (leftFree : Unclosed left)
    (rightFree : Unclosed right) (ends : Closes rest) (otherEnds : Closes other)
    (same : left ++ rest = right ++ other) : left = right ∧ rest = other := by
  rcases List.append_eq_append_iff.mp same with ⟨more, rfl, rfl⟩ | ⟨more, rfl, rfl⟩
  · cases more with
    | nil => exact ⟨(List.append_nil _).symm, rfl⟩
    | cons c more => exact absurd (ends c rfl) (rightFree c (by simp))
  · cases more with
    | nil => exact ⟨List.append_nil _, rfl⟩
    | cons c more => exact absurd (otherEnds c rfl) (leftFree c (by simp))

/-- Two texts stand at the same place, and they are the same only under a condition. -/
def Tells (left right : List Char) (agree : Prop) : Prop :=
  ∀ rest other, Closes rest → Closes other → left ++ rest = right ++ other → agree ∧ rest = other

theorem tells_refl (text : List Char) : Tells text text True :=
  fun _ _ _ _ same => ⟨trivial, List.append_cancel_left same⟩

theorem Tells.imp {left right : List Char} {agree weaker : Prop} (tells : Tells left right agree)
    (imp : agree → weaker) : Tells left right weaker :=
  fun rest other ends otherEnds same =>
    (tells rest other ends otherEnds same).imp_left imp

/-- What stands before both texts does not matter. -/
theorem Tells.prepend {left right : List Char} {agree : Prop} (tells : Tells left right agree)
    (front : List Char) : Tells (front ++ left) (front ++ right) agree := by
  intro rest other ends otherEnds same
  rw [List.append_assoc, List.append_assoc] at same
  exact tells rest other ends otherEnds (List.append_cancel_left same)

/-- A closing character after both texts does not matter. -/
theorem Tells.close {left right : List Char} {agree : Prop} (tells : Tells left right agree)
    {sign : Char} (closing : sign ∈ closing) : Tells (left ++ [sign]) (right ++ [sign]) agree := by
  intro rest other _ _ same
  rw [List.append_assoc, List.append_assoc] at same
  obtain ⟨agrees, tail⟩ :=
    tells _ _ (closes_cons closing rest) (closes_cons closing other) same
  exact ⟨agrees, (List.cons.inj tail).2⟩

/-- Texts with commas between them are told apart one by one. -/
theorem tells_intercalate {α : Type} {left right : α → List Char} {agree : α → Prop} {xs : List α}
    (each : ∀ x ∈ xs, Tells (left x) (right x) (agree x)) :
    Tells ([','].intercalate (xs.map left)) ([','].intercalate (xs.map right)) (∀ x ∈ xs, agree x) := by
  induction xs with
  | nil => exact (tells_refl []).imp fun _ => List.forall_mem_nil _
  | cons x xs ih =>
    obtain ⟨first, others⟩ := List.forall_mem_cons.mp each
    cases xs with
    | nil => simpa using first
    | cons next xs =>
      intro rest other ends otherEnds same
      simp only [List.map_cons, List.intercalate_cons_cons, List.append_assoc] at same
      obtain ⟨here, tail⟩ := first _ _ (closes_cons (by decide) _) (closes_cons (by decide) _) same
      obtain ⟨later, tails⟩ := ih others rest other ends otherEnds (by simpa using tail)
      exact ⟨List.forall_mem_cons.mpr ⟨here, later⟩, tails⟩

/-! ## Values -/

theorem mem_numbersOfItems {items : List Value} {text : String} :
    text ∈ numbersOfItems items ↔ ∃ item ∈ items, text ∈ item.numbers := by
  induction items with
  | nil => simp [numbersOfItems]
  | cons item items ih => simp [numbersOfItems, ih]

theorem mem_numbersOfEntries {entries : List (String × Value)} {text : String} :
    text ∈ numbersOfEntries entries ↔ ∃ entry ∈ entries, text ∈ entry.2.numbers := by
  induction entries with
  | nil => simp [numbersOfEntries]
  | cons entry entries ih =>
    obtain ⟨key, value⟩ := entry
    simp only [numbersOfEntries, List.mem_append, ih, List.exists_mem_cons_iff]

/-- The characters of an entry. -/
def spellEntryWith (shown : String → String) (entry : String × Value) : List Char :=
  (Json.quoted entry.1 ++ ":").toList ++ (entry.2.compactWith shown).toList

theorem toList_compactItemsWith (shown : String → String) (items : List Value) :
    (",".intercalate (compactItemsWith shown items)).toList =
      [','].intercalate (items.map fun item => (item.compactWith shown).toList) := by
  have parts : (compactItemsWith shown items).map String.toList =
      items.map fun item => (item.compactWith shown).toList := by
    induction items with
    | nil => rfl
    | cons item items ih => rw [compactItemsWith, List.map_cons, ih, List.map_cons]
  simp [parts]

theorem toList_compactEntriesWith (shown : String → String) (entries : List (String × Value)) :
    (",".intercalate (compactEntriesWith shown entries)).toList =
      [','].intercalate (entries.map (spellEntryWith shown)) := by
  have parts : (compactEntriesWith shown entries).map String.toList =
      entries.map (spellEntryWith shown) := by
    induction entries with
    | nil => rfl
    | cons entry entries ih =>
      obtain ⟨key, value⟩ := entry
      rw [compactEntriesWith, List.map_cons, ih, List.map_cons, String.toList_append]
      rfl
  simp [parts]

section Agreement

variable {first second : String → String}

/-- Each way to write these number texts leaves them without commas and closing brackets. -/
def Plain (first second : String → String) (texts : List String) : Prop :=
  ∀ text ∈ texts, Unclosed (first text).toList ∧ Unclosed (second text).toList

theorem tells_items {items : List Value}
    (each : ∀ item ∈ items, Tells (item.compactWith first).toList (item.compactWith second).toList
      (∀ text ∈ item.numbers, first text = second text)) :
    Tells ("[" ++ ",".intercalate (compactItemsWith first items) ++ "]").toList
      ("[" ++ ",".intercalate (compactItemsWith second items) ++ "]").toList
      (∀ text ∈ numbersOfItems items, first text = second text) := by
  simp only [String.toList_append, toList_compactItemsWith, List.append_assoc]
  refine Tells.imp (((tells_intercalate each).close (by decide)).prepend _) fun agree text mem => ?_
  obtain ⟨item, here, inside⟩ := mem_numbersOfItems.mp mem
  exact agree item here text inside

theorem tells_entries {entries : List (String × Value)}
    (each : ∀ entry ∈ entries, Tells (entry.2.compactWith first).toList
      (entry.2.compactWith second).toList (∀ text ∈ entry.2.numbers, first text = second text)) :
    Tells ("\x7b" ++ ",".intercalate (compactEntriesWith first entries) ++ "\x7d").toList
      ("\x7b" ++ ",".intercalate (compactEntriesWith second entries) ++ "\x7d").toList
      (∀ text ∈ numbersOfEntries entries, first text = second text) := by
  simp only [String.toList_append, toList_compactEntriesWith, List.append_assoc]
  have parts : ∀ entry ∈ entries, Tells (spellEntryWith first entry) (spellEntryWith second entry)
      (∀ text ∈ entry.2.numbers, first text = second text) :=
    fun entry here => (each entry here).prepend _
  refine Tells.imp (((tells_intercalate parts).close (by decide)).prepend _) fun agree text mem => ?_
  obtain ⟨entry, here, inside⟩ := mem_numbersOfEntries.mp mem
  exact agree entry here text inside

mutual
/-- Two ways to write the number texts give the same text of a value only if they agree on each. -/
theorem tells_compactWith (value : Value) (plain : Plain first second value.numbers) :
    Tells (value.compactWith first).toList (value.compactWith second).toList
      (∀ text ∈ value.numbers, first text = second text) := by
  cases value with
  | null | bool value | string text => exact (tells_refl _).imp fun _ => List.forall_mem_nil _
  | number text =>
    obtain ⟨left, right⟩ := plain text List.mem_cons_self
    intro rest other ends otherEnds same
    obtain ⟨here, tail⟩ := eq_of_append_eq left right ends otherEnds same
    exact ⟨List.forall_mem_singleton.mpr (String.toList_injective here), tail⟩
  | list items => exact tells_items (tells_ofItems items plain)
  | map entries => exact tells_entries (tells_ofEntries entries plain)
  | record fields => exact tells_entries (tells_ofEntries fields plain)

theorem tells_ofItems (items : List Value) (plain : Plain first second (numbersOfItems items)) :
    ∀ item ∈ items, Tells (item.compactWith first).toList (item.compactWith second).toList
      (∀ text ∈ item.numbers, first text = second text) := by
  cases items with
  | nil => exact List.forall_mem_nil _
  | cons item items =>
    obtain ⟨here, others⟩ := List.forall_mem_append.mp plain
    exact List.forall_mem_cons.mpr ⟨tells_compactWith item here, tells_ofItems items others⟩

theorem tells_ofEntries (entries : List (String × Value))
    (plain : Plain first second (numbersOfEntries entries)) :
    ∀ entry ∈ entries, Tells (entry.2.compactWith first).toList (entry.2.compactWith second).toList
      (∀ text ∈ entry.2.numbers, first text = second text) := by
  cases entries with
  | nil => exact List.forall_mem_nil _
  | cons entry entries =>
    obtain ⟨here, others⟩ := List.forall_mem_append.mp plain
    exact List.forall_mem_cons.mpr ⟨tells_compactWith entry.2 here, tells_ofEntries entries others⟩
end

mutual
/-- Ways to write that agree on each number text give the same text of a value. -/
theorem compactWith_congr (value : Value) (same : ∀ text ∈ value.numbers, first text = second text) :
    value.compactWith first = value.compactWith second := by
  cases value with
  | null | bool value | string text => rfl
  | number text => exact same text List.mem_cons_self
  | list items => rw [compactWith, compactWith, compactItemsWith_congr items same]
  | map entries => rw [compactWith, compactWith, compactEntriesWith_congr entries same]
  | record fields => rw [compactWith, compactWith, compactEntriesWith_congr fields same]

theorem compactItemsWith_congr (items : List Value)
    (same : ∀ text ∈ numbersOfItems items, first text = second text) :
    compactItemsWith first items = compactItemsWith second items := by
  cases items with
  | nil => rfl
  | cons item items =>
    obtain ⟨here, others⟩ := List.forall_mem_append.mp same
    rw [compactItemsWith, compactItemsWith, compactWith_congr item here,
      compactItemsWith_congr items others]

theorem compactEntriesWith_congr (entries : List (String × Value))
    (same : ∀ text ∈ numbersOfEntries entries, first text = second text) :
    compactEntriesWith first entries = compactEntriesWith second entries := by
  cases entries with
  | nil => rfl
  | cons entry entries =>
    obtain ⟨key, value⟩ := entry
    obtain ⟨here, others⟩ := List.forall_mem_append.mp same
    rw [compactEntriesWith, compactEntriesWith, compactWith_congr value here,
      compactEntriesWith_congr entries others]
end

theorem compactWith_eq_iff {value : Value} (plain : Plain first second value.numbers) :
    value.compactWith first = value.compactWith second ↔
      ∀ text ∈ value.numbers, first text = second text := by
  constructor
  · intro same
    have tells := tells_compactWith value plain [] [] nofun nofun
    exact (tells (by rw [same])).1
  · exact compactWith_congr value

end Agreement

/-! ## Numbers as they are -/

theorem unclosed_of_isNumberChar {chars : List Char}
    (each : ∀ c ∈ chars, Decimal.isNumberChar c = true) : Unclosed chars := by
  have none : closing.all (fun sign => !Decimal.isNumberChar sign) = true := by decide
  intro c mem closes
  have outside := List.all_eq_true.mp none c closes
  rw [each c mem] at outside
  cases outside

theorem isNumberChar_of_mem_numberText {number : JsonNumber} (held : number.IsHeld) :
    ∀ c ∈ (Json.numberText number).toList, Decimal.isNumberChar c = true := by
  cases number with
  | whole n => exact Decimal.isNumberChar_of_mem_toString n
  | real x => exact Decimal.isNumberChar_of_mem_write held

theorem unclosed_shownNumber {text : String} (number : IsJsonNumber text) :
    Unclosed (shownNumber text).toList := by
  rcases numberJson_of_isJsonNumber number with ⟨value, held, found⟩ | ⟨-, found⟩
  · rw [shownNumber, found]
    exact unclosed_of_isNumberChar (isNumberChar_of_mem_numberText held)
  · rw [shownNumber, found]
    show Unclosed ['n', 'u', 'l', 'l']
    simp [Unclosed, closing]

/-- The text of a list, a map or a record is its JSON text, with a number or null for each number of
JSON in it. A number has the text that it has on its own just if this is the text of a whole number of
a machine word or the shortest text of a floating-point number of 64 bits. So the numbers of a list or
a table are written as they are just if all of them are such texts. -/
theorem text_numbers {value : Value} (composite : value.Composite)
    (numbers : ∀ text ∈ value.numbers, IsJsonNumber text) :
    value.text = value.compactWith shownNumber ∧
      (∀ text ∈ value.numbers,
        (∃ number : JsonNumber, number.IsHeld ∧ shownNumber text = Json.numberText number) ∨
          NotFinite text ∧ shownNumber text = "null") ∧
      (∀ text ∈ value.numbers, shownNumber text = (Value.number text).text ↔ Exact text) ∧
      (value.text = value.compactWith (fun text => (Value.number text).text) ↔
        ∀ text ∈ value.numbers, Exact text) := by
  have written : value.text = value.compactWith shownNumber :=
    composite.text_eq.trans (compact_toJson value)
  refine ⟨written, fun text mem => ?_, fun text _ => shownNumber_eq_iff, ?_⟩
  · rcases numberJson_of_isJsonNumber (numbers text mem) with ⟨number, held, found⟩ | ⟨lost, found⟩
    · exact .inl ⟨number, held, by rw [shownNumber, found]; rfl⟩
    · exact .inr ⟨lost, by rw [shownNumber, found]; rfl⟩
  · have plain : Plain shownNumber (fun text => (Value.number text).text) value.numbers :=
      fun text mem => ⟨unclosed_shownNumber (numbers text mem),
        unclosed_of_isNumberChar (numbers text mem).isNumberChar⟩
    rw [written, compactWith_eq_iff plain]
    exact forall₂_congr fun text _ => shownNumber_eq_iff

/-- Numbers with a zero too many, with a sign of zero, beyond the range, and one that stays. -/
theorem text_numbers_of_map :
    let value : Value := .map [("a", .list [.number "0.10", .number "-0"]),
      ("b", .record [("c", .number "1e999"), ("d", .number "-2.5")])]
    (∀ text ∈ value.numbers, IsJsonNumber text) ∧
      value.text = "\x7b\"a\":[0.1,0],\"b\":\x7b\"c\":null,\"d\":-2.5\x7d\x7d" ∧
      (¬ ∀ text ∈ value.numbers, Exact text) ∧ Exact "-2.5" := by
  intro value
  have tenth : IsJsonNumber "0.10" :=
    ⟨false, ['0'], ['.', '1', '0'], [], rfl, .zero, .point (by decide) (List.all_eq_true.mp rfl), .none⟩
  have zero : IsJsonNumber "-0" := ⟨true, ['0'], [], [], rfl, .zero, .none, .none⟩
  have large : IsJsonNumber "1e999" :=
    ⟨false, ['1'], [], ['e', '9', '9', '9'], rfl,
      .digits rfl (by decide) (List.all_eq_true.mp rfl), .none,
      .power (.inl rfl) (.inl rfl) (by decide) (List.all_eq_true.mp rfl)⟩
  have half : IsJsonNumber "-2.5" :=
    ⟨true, ['2'], ['.', '5'], [], rfl, .digits rfl (by decide) (List.all_eq_true.mp rfl),
      .point (by decide) (List.all_eq_true.mp rfl), .none⟩
  have numbers : ∀ text ∈ value.numbers, IsJsonNumber text := by
    simpa [value, Value.numbers, numbersOfEntries, numbersOfItems] using ⟨tenth, zero, large, half⟩
  obtain ⟨written, -, single, whole⟩ := text_numbers (.map _) numbers
  have text : value.text = "\x7b\"a\":[0.1,0],\"b\":\x7b\"c\":null,\"d\":-2.5\x7d\x7d" := by
    decide +kernel
  refine ⟨numbers, text, fun exact => ?_, (single "-2.5" (by decide)).mp (by decide +kernel)⟩
  exact absurd (whole.mpr exact) (by rw [text]; decide +kernel)

/-- Two numbers of JSON that a list does not show as they are, though each of them is its own text. -/
theorem text_rounded :
    let value : Value := .list [.number "0.10", .number "18446744073709551616"]
    value.Composite ∧ (∀ text ∈ value.numbers, IsJsonNumber text) ∧
      value.text = "[0.1,1.8446744073709552e+19]" ∧
      value.compactWith (fun text => (Value.number text).text) = "[0.10,18446744073709551616]" := by
  intro value
  have tenth : IsJsonNumber "0.10" :=
    ⟨false, ['0'], ['.', '1', '0'], [], rfl, .zero, .point (by decide) (List.all_eq_true.mp rfl), .none⟩
  have large : IsJsonNumber "18446744073709551616" :=
    ⟨false, "18446744073709551616".toList, [], [], by simp [Decimal.Layout.sign],
      .digits rfl (by decide) (List.all_eq_true.mp rfl), .none, .none⟩
  refine ⟨.list _, ?_, by decide +kernel, by decide +kernel⟩
  simpa [value, Value.numbers, numbersOfItems] using ⟨tenth, large⟩

end XmlTemplate.Value
