import XmlTemplate.Json.Read
import XmlTemplate.Proofs.Decimal.Integer
import XmlTemplate.Proofs.Json.Valid

/-!
# Reading JSON texts that were written

What is written is read back: strings with every character they had, whole numbers of a machine word,
arrays and objects in their order. A value is read together with what stands after it, which is
anything that does not prolong a number.

Results:
1. `readUnits_quoted`: the strings that are read back, which is all of them.
2. `readNumber_toDigits`: the whole numbers that are read back.
3. `readGroup_spelled`: items that are read one by one are read between brackets.
4. `readValue_compact`, `parse?_compact`: values are read back.
-/

namespace XmlTemplate.Json

open Decimal (digitValue isDigit wordBound)

theorem skip_cons {c : Char} (inside : isSpace c = false) (text : List Char) :
    skip (c :: text) = c :: text := by
  simp [skip, inside]

/-! ## Strings -/

theorem hexValue?_digitChar : ∀ digit < 16, hexValue? (Nat.digitChar digit) = some digit := by
  decide

/-- A character below the space is spelled by its code point. -/
theorem readUnits_control {c : Char} (control : c.toNat < 0x20) (seen rest : List Char) :
    readUnits seen (['\\', 'u', '0', '0', Nat.digitChar (c.toNat / 16),
      Nat.digitChar (c.toNat % 16)] ++ rest) = readUnits (c :: seen) rest := by
  have zero : hexValue? '0' = some 0 := by decide
  have high := hexValue?_digitChar (c.toNat / 16) (by omega)
  have low := hexValue?_digitChar (c.toNat % 16) (by omega)
  have value : hexValue4? '0' '0' (Nat.digitChar (c.toNat / 16)) (Nat.digitChar (c.toNat % 16)) =
      some c.toNat := by
    simp only [hexValue4?, zero, high, low, bind, Option.bind, pure]
    congr 1
    omega
  have single : isHigh c.toNat = false ∧ isLow c.toNat = false := by
    simp only [isHigh, isLow, Bool.and_eq_false_iff, decide_eq_false_iff_not]
    omega
  simp only [List.cons_append, List.nil_append]
  rw [readUnits]
  simp [value, single, Char.ofNat_toNat]

theorem readUnits_plain {c : Char} (quote : c ≠ '"') (backslash : c ≠ '\\')
    (visible : ¬ c.toNat < 0x20) (seen rest : List Char) :
    readUnits seen (c :: rest) = readUnits (c :: seen) rest := by
  rw [readUnits]
  · simp [visible, backslash]
  · simpa using quote
  all_goals simp [backslash]

/-- A spelled character is read as the character. -/
theorem readUnits_unit (seen : List Char) (c : Char) (rest : List Char) :
    readUnits seen (unit c ++ rest) = readUnits (c :: seen) rest := by
  unfold unit
  split
  · rename_i own
    rcases own with rfl | rfl <;> rfl
  split
  · rename_i newline
    subst newline
    rfl
  split
  · rename_i carriage
    subst carriage
    rfl
  split
  · rename_i tab
    subst tab
    rfl
  split
  · rename_i backspace
    subst backspace
    rfl
  split
  · rename_i feed
    subst feed
    rfl
  split
  · rename_i control
    exact readUnits_control control seen rest
  · rename_i own _ _ _ _ _ visible
    exact readUnits_plain (fun quote => own (.inl quote)) (fun backslash => own (.inr backslash))
      visible seen rest

theorem readUnits_units (seen text rest : List Char) :
    readUnits seen (text.flatMap unit ++ '"' :: rest) =
      some (String.ofList (seen.reverse ++ text), rest) := by
  induction text generalizing seen with
  | nil => rw [List.flatMap_nil, List.nil_append, readUnits_quote, List.append_nil]
  | cons c text ih =>
    rw [List.flatMap_cons, List.append_assoc, readUnits_unit, ih, List.reverse_cons,
      List.append_assoc]
    rfl

theorem toList_quoted (text : String) :
    (quoted text).toList = '"' :: (text.toList.flatMap unit ++ ['"']) := by
  rw [quoted, String.toList_ofList]

/-- The characters of a string, without its opening quote, are read up to its closing one. -/
theorem readUnits_quoted (text : String) (rest : List Char) :
    readUnits [] ((quoted text).toList.tail ++ rest) = some (text, rest) := by
  rw [toList_quoted, List.tail_cons, List.append_assoc, List.singleton_append, readUnits_units]
  simp

/-! ## Whole numbers -/

/-- No number goes on with these characters. -/
def EndsNumber (rest : List Char) : Prop :=
  ∀ c, rest.head? = some c → isDigit c = false ∧ c ≠ '.' ∧ c ≠ 'e' ∧ c ≠ 'E'

theorem endsNumber_nil : EndsNumber [] := by
  intro c starts
  cases starts

theorem endsNumber_cons {c : Char} (sign : isDigit c = false ∧ c ≠ '.' ∧ c ≠ 'e' ∧ c ≠ 'E')
    (rest : List Char) : EndsNumber (c :: rest) := by
  rintro d ⟨⟩
  exact sign

/-- Digits only make a number greater, so if all of them fit a word, each of them does. -/
theorem keepWhole_of_lt {digits : List Char} {significand : Nat}
    (small : Nat.ofDigitChars 10 digits significand < wordBound) :
    keepWhole significand digits = (Nat.ofDigitChars 10 digits significand, 0) := by
  induction digits generalizing significand with
  | nil => rfl
  | cons c digits ih =>
    rw [Nat.ofDigitChars_cons] at small ⊢
    have grows : 10 * significand + digitValue c ≤
        Nat.ofDigitChars 10 digits (10 * significand + digitValue c) := by
      rw [Nat.ofDigitChars_eq_ofDigitChars_zero]
      exact Nat.le_trans (Nat.le_mul_of_pos_left _ (Nat.pow_pos (by omega))) (Nat.le_add_right ..)
    have room : fits significand c = true := by
      rw [fits, decide_eq_true_eq]
      exact Nat.lt_of_le_of_lt grows small
    rw [keepWhole_of_fits room]
    exact ih small

/-- Only zero starts with a zero. -/
theorem head?_toDigits {n : Nat} (zero : (Nat.toDigits 10 n).head? = some '0') : n = 0 := by
  induction n using Nat.strongRecOn with
  | ind n ih =>
    by_cases small : n < 10
    · rw [Nat.toDigits_of_lt_base small, List.head?_cons, Option.some.injEq] at zero
      exact Nat.digitChar_eq_zero.mp zero
    · rw [Nat.toDigits_of_base_le (by omega) (by omega), List.head?_append] at zero
      have front : (Nat.toDigits 10 (n / 10)).head? = some '0' := by
        cases starts : (Nat.toDigits 10 (n / 10)).head? with
        | none => exact absurd (List.head?_eq_none_iff.mp starts) Nat.toDigits_ne_nil
        | some c => simpa [starts] using zero
      have := ih (n / 10) (by omega) front
      omega

theorem readNumber_toDigits (negative : Bool) {n : Nat} (small : n < wordBound)
    {rest : List Char} (ends : EndsNumber rest) :
    readNumber negative (Nat.toDigits 10 n ++ rest) = some (wholeOrReal negative n, rest) := by
  have each : ∀ c ∈ Nat.toDigits 10 n, isDigit c = true :=
    fun c member => Decimal.isDigit_of_mem_toDigits member
  have kept : keepWhole 0 (Nat.toDigits 10 n) = (n, 0) := by
    have value : Nat.ofDigitChars 10 (Nat.toDigits 10 n) 0 = n := Nat.ofDigitChars_ten_toDigits
    rw [keepWhole_of_lt (by rw [value]; exact small), value]
  have written : ((Nat.toDigits 10 n).isEmpty ||
      ((Nat.toDigits 10 n).head? == some '0' && Nat.toDigits 10 n != ['0'])) = false := by
    have present : (Nat.toDigits 10 n).isEmpty = false := by simp [Nat.toDigits_ne_nil]
    rw [present, Bool.false_or, Bool.and_eq_false_iff, beq_eq_false_iff_ne, bne_eq_false_iff_eq]
    by_cases zero : (Nat.toDigits 10 n).head? = some '0'
    · rw [head?_toDigits zero]
      exact .inr rfl
    · exact .inl zero
  unfold readNumber
  have stops : ∀ c, rest.head? = some c → isDigit c = false := fun c starts => (ends c starts).1
  simp only [Decimal.takeWhile_isDigit each stops, Decimal.dropWhile_isDigit each stops, kept,
    written]
  cases rest with
  | nil => simp
  | cons c rest =>
    obtain ⟨digit, point, lower, upper⟩ := ends c rfl
    simp [point, lower, upper]

/-! ## Items and entries -/

section Groups

variable {α : Type} (item : List Char → Option (α × List Char)) (spell : α → List Char)
  {close : Char}

theorem readItems_spelled (sign : isSpace close = false ∧ close ≠ ',')
    (stops : ∀ rest, EndsNumber (close :: rest)) {xs : List α}
    (each : ∀ x ∈ xs, ∀ rest, EndsNumber rest → item (spell x ++ rest) = some (x, rest))
    (present : xs ≠ []) (bound : List Char) (enough : xs.length ≤ bound.length) (rest : List Char) :
    readItems item close bound ([','].intercalate (xs.map spell) ++ close :: rest) =
      some (xs, rest) := by
  induction xs generalizing bound with
  | nil => exact absurd rfl present
  | cons x xs ih =>
    obtain ⟨first, others⟩ := List.forall_mem_cons.mp each
    cases bound with
    | nil => simp at enough
    | cons c bound =>
      cases xs with
      | nil =>
        rw [List.map_singleton, List.intercalate_singleton, readItems, first _ (stops rest)]
        simp [skip_cons sign.1, sign.2]
      | cons next xs =>
        have spelled : [','].intercalate ((x :: next :: xs).map spell) ++ close :: rest =
            spell x ++ ',' :: ([','].intercalate ((next :: xs).map spell) ++ close :: rest) := by
          simp [List.intercalate_cons_cons]
        have more := ih others (by simp) bound (by simpa using enough)
        rw [spelled, readItems, first _ (endsNumber_cons (by decide) _)]
        simp only [bind, Option.bind, skip_cons (show isSpace ',' = false by decide), more]
        rfl

/-- Items that are read one by one are read between brackets. Each starts with a character that is
neither a space nor the closing bracket. -/
theorem readGroup_spelled (sign : isSpace close = false ∧ close ≠ ',')
    (stops : ∀ rest, EndsNumber (close :: rest)) {xs : List α}
    (each : ∀ x ∈ xs, ∀ rest, EndsNumber rest → item (spell x ++ rest) = some (x, rest))
    (starts : ∀ x ∈ xs, ∃ c more, spell x = c :: more ∧ isSpace c = false ∧ c ≠ close)
    (rest : List Char) :
    readGroup item close ([','].intercalate (xs.map spell) ++ close :: rest) = some (xs, rest) := by
  cases xs with
  | nil => simp [readGroup, skip_cons sign.1]
  | cons x xs =>
    obtain ⟨c, more, spelled, inside, other⟩ := starts x (by simp)
    have enough : (x :: xs).length ≤
        ([','].intercalate ((x :: xs).map spell) ++ close :: rest).length := by
      have long : ∀ ys : List α, ys ≠ [] →
          ys.length ≤ ([','].intercalate (ys.map spell)).length + 1 := by
        intro ys present
        induction ys with
        | nil => exact absurd rfl present
        | cons y ys ih =>
          cases ys with
          | nil => simp
          | cons next ys =>
            have more := ih (by simp)
            simp only [List.map_cons, List.intercalate_cons_cons, List.length_append,
              List.length_cons, List.length_nil] at more ⊢
            omega
      have := long (x :: xs) (by simp)
      rw [List.length_append, List.length_cons (a := close)]
      omega
    have shape : ∃ tail, [','].intercalate ((x :: xs).map spell) ++ close :: rest = c :: tail := by
      cases xs with
      | nil => exact ⟨more ++ close :: rest, by simp [spelled]⟩
      | cons next xs => exact ⟨_, by rw [List.map_cons, spelled, List.map_cons,
          List.intercalate_cons_cons_left, List.cons_append]⟩
    obtain ⟨tail, shape⟩ := shape
    have read := readItems_spelled item spell sign stops each (by simp) _ enough rest
    rw [readGroup, shape, skip_cons inside]
    simp only [other]
    rw [← shape]
    exact read

end Groups

/-! ## Values -/

theorem not_isSpace_of_isDigit {c : Char} (digit : isDigit c = true) : isSpace c = false := by
  cases space : isSpace c with
  | false => rfl
  | true =>
    simp only [isSpace, Bool.or_eq_true, beq_iff_eq] at space
    rcases space with ((rfl | rfl) | rfl) | rfl <;> simp [isDigit] at digit

theorem readScalar_digit {c : Char} (digit : isDigit c = true) (text : List Char) :
    readScalar (c :: text) =
      (readNumber false (c :: text)).map fun (n, rest) => (.number n, rest) := by
  unfold readScalar
  rw [skip_cons (not_isSpace_of_isDigit digit)]
  split
  case h_6 => rfl
  all_goals
    rename_i shape
    cases shape
    simp [isDigit] at digit

theorem readScalar_whole {n : Int} (word : (JsonNumber.whole n).IsWord) {rest : List Char}
    (ends : EndsNumber rest) :
    readScalar ((toString n).toList ++ rest) = some (.number (.whole n), rest) := by
  obtain ⟨low, high⟩ := word
  cases n with
  | ofNat n =>
    have small : n < wordBound := Int.ofNat_lt.mp high
    have read := readNumber_toDigits false small ends
    obtain ⟨c, more, shape, digit⟩ := Decimal.toDigits_starts n
    rw [Int.ofNat_eq_natCast, Decimal.toString_ofNat, Decimal.toList_toString_nat]
    rw [shape] at read ⊢
    rw [List.cons_append, readScalar_digit digit, ← List.cons_append, read]
    rfl
  | negSucc n =>
    have half : n + 1 ≤ Nat.pow 2 63 := by omega
    have small : n + 1 < wordBound := Nat.lt_of_le_of_lt half (by decide)
    have whole : wholeOrReal true (n + 1) = .whole (Int.negSucc n) := by
      have within : ¬ (n + 1 = 0 ∨ Nat.pow 2 63 < n + 1) := by omega
      rw [wholeOrReal, if_pos rfl, if_neg within, Int.negSucc_eq]
      rfl
    have read := readNumber_toDigits true small ends
    rw [whole] at read
    rw [Decimal.toList_toString_negSucc, List.cons_append]
    show (readNumber true (Nat.toDigits 10 (n + 1) ++ rest)).map _ = _
    rw [read]
    rfl

/-- A text that is no array and no object is read as a scalar on every level. -/
theorem readValue_scalar {c : Char} (inside : isSpace c = false) (noArray : c ≠ '[')
    (noObject : c ≠ '\x7b') (levels : Nat) (text : List Char) :
    readValue levels (c :: text) = readScalar (c :: text) := by
  cases levels with
  | zero => rfl
  | succ levels =>
    rw [readValue, skip_cons inside]
    split
    · rename_i shape
      cases shape
      exact absurd rfl noArray
    · rename_i shape
      cases shape
      exact absurd rfl noObject
    · rfl

/-- The characters of an entry. -/
def spellEntry (entry : String × Json) : List Char :=
  (quoted entry.1).toList ++ ':' :: entry.2.compact.toList

theorem toList_compact_array (items : List Json) :
    (array items).compact.toList =
      '[' :: ([','].intercalate (items.map fun item => item.compact.toList) ++ [']']) := by
  simp [compactItems_eq_map, Function.comp_def]

theorem toList_compact_object (entries : List (String × Json)) :
    (object entries).compact.toList =
      '\x7b' :: ([','].intercalate (entries.map spellEntry) ++ ['\x7d']) := by
  have parts : (compactEntries entries).map String.toList = entries.map spellEntry := by
    rw [compactEntries_eq_map, List.map_map]
    exact List.map_congr_left fun entry _ => by simp [spellEntry]
  simp [parts]

theorem toString_starts (n : Int) :
    ∃ c more, (toString n).toList = c :: more ∧ (isDigit c = true ∨ c = '-') := by
  cases n with
  | ofNat n =>
    obtain ⟨c, more, shape, digit⟩ := Decimal.toDigits_starts n
    rw [Int.ofNat_eq_natCast, Decimal.toString_ofNat, Decimal.toList_toString_nat]
    exact ⟨c, more, shape, .inl digit⟩
  | negSucc n => exact ⟨'-', _, Decimal.toList_toString_negSucc n, .inr rfl⟩

variable {json : Json}

/-- A value starts with a character that is neither a space nor a closing bracket. -/
theorem compact_starts (valid : json.Valid JsonNumber.IsWord) :
    ∃ c more, json.compact.toList = c :: more ∧ isSpace c = false ∧ c ≠ ']' := by
  cases valid with
  | null => exact ⟨'n', "ull".toList, rfl, rfl, by decide⟩
  | bool value =>
    cases value with
    | true => exact ⟨'t', "rue".toList, rfl, rfl, by decide⟩
    | false => exact ⟨'f', "alse".toList, rfl, rfl, by decide⟩
  | @number value word =>
    cases value with
    | real x => exact word.elim
    | whole n =>
      obtain ⟨c, more, shape, digit | rfl⟩ := toString_starts n
      · refine ⟨c, more, shape, not_isSpace_of_isDigit digit, ?_⟩
        rintro rfl
        exact absurd digit (by decide)
      · exact ⟨'-', more, shape, rfl, by decide⟩
  | string text => exact ⟨'"', _, toList_quoted text, rfl, by decide⟩
  | array each => exact ⟨'[', _, toList_compact_array _, rfl, by decide⟩
  | object distinct each => exact ⟨'\x7b', _, toList_compact_object _, rfl, by decide⟩

theorem readEntry_spelled {value : List Char → Option (Json × List Char)} {entry : String × Json}
    {rest : List Char}
    (read : value (entry.2.compact.toList ++ rest) = some (entry.2, rest)) :
    readEntry value (spellEntry entry ++ rest) = some (entry, rest) := by
  have shape : spellEntry entry ++ rest =
      '"' :: ((quoted entry.1).toList.tail ++ ':' :: (entry.2.compact.toList ++ rest)) := by
    simp [spellEntry, toList_quoted]
  rw [readEntry, shape, skip_cons (by decide)]
  simp only [readUnits_quoted, bind, Option.bind, skip_cons (show isSpace ':' = false by decide),
    read]
  rfl

/-- A value is read back, together with what stands after it. -/
theorem readValue_compact (valid : json.Valid JsonNumber.IsWord) {levels : Nat}
    (within : json.levels ≤ levels) {rest : List Char} (ends : EndsNumber rest) :
    readValue levels (json.compact.toList ++ rest) = some (json, rest) := by
  induction valid generalizing levels rest with
  | null => exact readValue_scalar rfl (by decide) (by decide) levels _
  | bool value =>
    cases value with
    | true => exact readValue_scalar rfl (by decide) (by decide) levels _
    | false => exact readValue_scalar rfl (by decide) (by decide) levels _
  | @number value word =>
    cases value with
    | real x => exact word.elim
    | whole n =>
      have read := readScalar_whole word ends
      obtain ⟨c, more, shape, start⟩ := toString_starts n
      have other : ∀ d, isDigit d = false → d ≠ '-' → c ≠ d := by
        rintro d digit minus rfl
        rcases start with start | start
        · simp [digit] at start
        · exact minus start
      have inside : isSpace c = false := by
        rcases start with digit | rfl
        · exact not_isSpace_of_isDigit digit
        · rfl
      show readValue levels ((toString n).toList ++ rest) = _
      rw [shape, List.cons_append] at read ⊢
      rw [readValue_scalar inside (other '[' (by decide) (by decide))
        (other '\x7b' (by decide) (by decide)), read]
  | string text =>
    rw [show (string text).compact = quoted text from rfl, toList_quoted, List.cons_append,
      readValue_scalar (by decide) (by decide) (by decide)]
    have read := readUnits_quoted text rest
    rw [toList_quoted, List.tail_cons] at read
    rw [readScalar, skip_cons (by decide)]
    simp only [read]
    rfl
  | @array items each ih =>
    cases levels with
    | zero => simp [Json.levels] at within
    | succ levels =>
      have inside : ∀ item ∈ items, item.levels ≤ levels := fun item member =>
        Nat.le_trans (levels_item_le member) (Nat.le_of_succ_le_succ within)
      have read := readGroup_spelled (readValue levels) (fun item => item.compact.toList)
        (show isSpace ']' = false ∧ ']' ≠ ',' by decide) (fun rest => endsNumber_cons (by decide) rest)
        (fun item member rest ends => ih item member (inside item member) ends)
        (fun item member => compact_starts (each item member)) rest
      rw [toList_compact_array, List.cons_append, List.append_assoc, List.singleton_append,
        readValue, skip_cons (by decide)]
      simp only [read]
      rfl
  | @object entries distinct each ih =>
    cases levels with
    | zero => simp [Json.levels] at within
    | succ levels =>
      have inside : ∀ entry ∈ entries, entry.2.levels ≤ levels := fun entry member =>
        Nat.le_trans (levels_entry_le member) (Nat.le_of_succ_le_succ within)
      have read := readGroup_spelled (readEntry (readValue levels)) spellEntry
        (show isSpace '\x7d' = false ∧ '\x7d' ≠ ',' by decide)
        (fun rest => endsNumber_cons (by decide) rest)
        (fun entry member rest ends =>
          readEntry_spelled (ih entry member (inside entry member) ends))
        (fun entry member => ⟨'"', _, by rw [spellEntry, toList_quoted]; rfl, rfl, by decide⟩) rest
      rw [toList_compact_object, List.cons_append, List.append_assoc, List.singleton_append,
        readValue, skip_cons (by decide)]
      simp only [read]
      rfl

/-- The text of a value that is not nested too deeply is read as the value. -/
theorem parse?_compact (valid : json.Valid JsonNumber.IsWord) (within : json.levels ≤ maxLevels) :
    parse? json.compact = some json := by
  have read := readValue_compact valid within endsNumber_nil
  rw [List.append_nil] at read
  rw [parse?, read]
  rfl

end XmlTemplate.Json
