import XmlTemplate.Proofs.Decimal.Range
import XmlTemplate.Proofs.Host.Json

/-!
# Number texts in JSON

A number text becomes a whole number, a floating-point number, null or a string. A floating-point
number is the one nearest to the text, so most texts of fractions and all of numbers beyond a machine
word are replaced by another text, and those beyond the range of 64 bits are lost.

Results:
1. `notFinite_iff`, `holds_of_read?`: which texts are read as numbers of 64 bits.
2. `numberJson_becomes`: what a number text becomes, in each case with the reason.
3. `numberJson_eq_null_iff`: which texts become null.
4. `shownNumber_eq_iff`: which texts are written again as they are.
5. `numberJson_of_isJsonNumber`: a number of JSON is no string.
-/

namespace XmlTemplate

namespace Decimal

/-! ## Floating-point numbers -/

/-- The characters of a text after an optional sign. -/
def unsigned (text : String) : List Char :=
  match text.toList with
  | '+' :: rest => rest
  | '-' :: rest => rest
  | chars => chars

/-- The text is a word for the infinite or the undefined number, or a numeral beyond the range of 64
bits. -/
inductive NotFinite (text : String) : Prop
  | word : lower (unsigned text) ∈ ["inf".toList, "infinity".toList, "nan".toList] → NotFinite text
  | large {n : Numeral} : numeral? (unsigned text) = some n →
      double.limit ≤ decimalValue n.digits n.exponent → NotFinite text

variable {text : String} {x : Binary}

theorem read?_eq_readUnsigned? (width : Width) (text : String) :
    ∃ negative, width.read? text = width.readUnsigned? negative (unsigned text) := by
  unfold Width.read? unsigned
  split
  · next shape => exact ⟨true, by simp only [shape]⟩
  · next shape => exact ⟨false, by simp only [shape]⟩
  · next minus plus =>
    refine ⟨false, ?_⟩
    split
    · next shape => exact absurd shape (plus _)
    · next shape => exact absurd shape (minus _)
    · rfl

theorem Width.Holds.isFinite {width : Width} (holds : width.Holds x) : x.isFinite = true := by
  cases x with
  | nan | infinite negative => exact holds.elim
  | finite => rfl

theorem notFinite_iff : NotFinite text ↔ ∃ x, double.read? text = some x ∧ x.isFinite = false := by
  obtain ⟨negative, same⟩ := read?_eq_readUnsigned? double text
  rw [same, Width.readUnsigned?]
  split
  · next word => exact ⟨fun _ => ⟨_, rfl, rfl⟩, fun _ => .word (by simpa using word.elim .inl (.inr ∘ .inl))⟩
  split
  · next nan => exact ⟨fun _ => ⟨_, rfl, rfl⟩, fun _ => .word (by simp [nan])⟩
  next infinite nan =>
  constructor
  · rintro (word | @⟨n, read, large⟩)
    · simp only [List.mem_cons, List.not_mem_nil, or_false] at word
      exact absurd word (by tauto)
    · rw [read, Option.map_some]
      rcases ofDecimal_spec proper_double negative n.digits n.exponent with ⟨_, found⟩ | ⟨small, _⟩
      · exact ⟨_, rfl, by rw [found]; rfl⟩
      · exact absurd large small.not_ge
  · rintro ⟨x, found, other⟩
    obtain ⟨n, read, rfl⟩ := Option.map_eq_some_iff.mp found
    rcases ofDecimal_spec proper_double negative n.digits n.exponent with ⟨large, _⟩ | ⟨_, holds⟩
    · exact .large read large
    · rw [holds.isFinite] at other
      cases other

theorem holds_of_read? (read : double.read? text = some x) (finite : x.isFinite = true) :
    double.Holds x := by
  obtain ⟨negative, same⟩ := read?_eq_readUnsigned? double text
  rw [same, Width.readUnsigned?] at read
  split at read
  · cases read
    cases finite
  split at read
  · cases read
    cases finite
  obtain ⟨n, -, rfl⟩ := Option.map_eq_some_iff.mp read
  rcases ofDecimal_spec proper_double negative n.digits n.exponent with ⟨_, found⟩ | ⟨_, holds⟩
  · rw [found] at finite
    cases finite
  · exact holds

/-! ## Whole numbers -/

theorem digits?_eq_some {chars : List Char} {n : ℕ} (read : digits? chars = some n) :
    chars ≠ [] ∧ (∀ c ∈ chars, isDigit c = true) ∧ ofDigits chars = n := by
  unfold digits? at read
  split at read
  · next shape =>
    simp only [Bool.and_eq_true, Bool.not_eq_true', List.isEmpty_eq_false_iff, List.all_eq_true]
      at shape
    exact ⟨shape.1, shape.2, Option.some.inj read⟩
  · cases read

theorem digits?_of_integer? {least greatest n : ℤ} (read : integer? least greatest text = some n) :
    digits? (unsigned text) = some n.natAbs := by
  obtain ⟨value, -⟩ := Option.filter_eq_some_iff.mp read
  unfold unsigned
  split at value
  all_goals
    next shape =>
    obtain ⟨m, digits, rfl⟩ := Option.map_eq_some_iff.mp value
    simpa [shape] using digits

theorem digits?_of_natural? {bound n : ℕ} (read : natural? bound text = some n) :
    digits? (unsigned text) = some n := by
  obtain ⟨value, -⟩ := Option.filter_eq_some_iff.mp read
  unfold unsigned
  split at value
  · next shape => simpa [shape] using value
  · next plus =>
    split
    · next shape => exact absurd shape (plus _)
    · next shape =>
      -- a minus sign is no digit
      rw [shape, digits?_eq_none List.mem_cons_self (by decide)] at value
      cases value
    · exact value

/-- A whole number of a machine word is no infinite number. -/
theorem finite_of_digits? {n : ℕ} (digits : digits? (unsigned text) = some n) (word : n < wordBound) :
    ∃ x, double.read? text = some x ∧ x.isFinite = true := by
  obtain ⟨present, each, value⟩ := digits?_eq_some digits
  obtain ⟨negative, same⟩ := read?_eq_readUnsigned? double text
  have numeral : numeral? (unsigned text) = some ⟨n, 0⟩ := by
    have all : (unsigned text).takeWhile isDigit = unsigned text ∧
        (unsigned text).dropWhile isDigit = [] :=
      ⟨List.takeWhile_eq_self_iff.mpr each, List.dropWhile_eq_nil_iff.mpr each⟩
    simp [numeral?, all, present, value]
  have small : decimalValue n 0 < double.limit := by
    have fits : (n : ℚ) < wordBound := by exact_mod_cast word
    have room : (wordBound : ℚ) ≤ double.limit := by
      refine le_trans ?_ proper_double.power_le_limit
      rw [wordBound, Nat.pow_eq, Nat.cast_pow, ← zpow_natCast]
      exact zpow_le_zpow_right₀ one_le_two (by decide)
    simpa [decimalValue] using fits.trans_le room
  obtain ⟨c, rest, shape⟩ := List.exists_cons_of_ne_nil present
  have first : isDigit c = true := each c (by rw [shape]; exact List.mem_cons_self)
  rw [same, shape, readUnsigned?_of_digit negative first, ← shape, numeral]
  rcases ofDecimal_spec proper_double negative n 0 with ⟨large, _⟩ | ⟨_, holds⟩
  · exact absurd large small.not_ge
  · exact ⟨_, rfl, holds.isFinite⟩

/-! ## The grammar of JSON -/

/-- Digits without a leading zero. -/
inductive WholePart : List Char → Prop
  | zero : WholePart ['0']
  | digits {first : Char} {rest : List Char} : isDigit first = true → first ≠ '0' →
      (∀ c ∈ rest, isDigit c = true) → WholePart (first :: rest)

/-- Nothing, or a point and at least one digit. -/
inductive FractionPart : List Char → Prop
  | none : FractionPart []
  | point {digits : List Char} : digits ≠ [] → (∀ c ∈ digits, isDigit c = true) →
      FractionPart ('.' :: digits)

/-- Nothing, or a letter, an optional sign and at least one digit. -/
inductive ExponentPart : List Char → Prop
  | none : ExponentPart []
  | power {letter : Char} {sign digits : List Char} : letter = 'e' ∨ letter = 'E' →
      sign = [] ∨ sign = ['+'] ∨ sign = ['-'] → digits ≠ [] → (∀ c ∈ digits, isDigit c = true) →
      ExponentPart (letter :: (sign ++ digits))

/-- The numbers of JSON, of any size and with any number of digits. -/
structure IsJsonNumber (text : String) : Prop where
  parts : ∃ negative whole fraction exponent,
    text.toList = Layout.sign negative ++ (whole ++ (fraction ++ exponent)) ∧
      WholePart whole ∧ FractionPart fraction ∧ ExponentPart exponent

theorem WholePart.digit {whole : List Char} (part : WholePart whole) :
    whole ≠ [] ∧ ∀ c ∈ whole, isDigit c = true := by
  cases part with
  | zero => exact ⟨by simp, List.forall_mem_singleton.mpr (by decide)⟩
  | digits first _ rest => exact ⟨by simp, List.forall_mem_cons.mpr ⟨first, rest⟩⟩

theorem ExponentPart.ends {exponent : List Char} (part : ExponentPart exponent) :
    ∀ c, exponent.head? = some c → isDigit c = false := by
  cases part with
  | none => exact nofun
  | power letter => exact ends_cons (by rcases letter with rfl | rfl <;> decide) _

theorem FractionPart.ends {fraction exponent : List Char} (part : FractionPart fraction)
    (last : ExponentPart exponent) :
    ∀ c, (fraction ++ exponent).head? = some c → isDigit c = false := by
  cases part with
  | none => exact last.ends
  | point => exact ends_cons (by decide) _

theorem exists_exponent? {sign digits : List Char} (signed : sign = [] ∨ sign = ['+'] ∨ sign = ['-'])
    (present : digits ≠ []) (each : ∀ c ∈ digits, isDigit c = true) :
    ∃ e, exponent? (sign ++ digits) = some e := by
  have read : digits? digits = some (ofDigits digits) := by
    simp [digits?, present, List.all_eq_true.mpr each]
  rcases signed with rfl | rfl | rfl
  · rw [List.nil_append, exponent?.eq_3]
    · exact ⟨_, by rw [read]; rfl⟩
    · rintro rest rfl
      exact absurd (each '+' List.mem_cons_self) (by decide)
    · rintro rest rfl
      exact absurd (each '-' List.mem_cons_self) (by decide)
  · exact ⟨_, by rw [List.singleton_append, exponent?, read]; rfl⟩
  · exact ⟨_, by rw [List.singleton_append, exponent?, read]; rfl⟩

theorem exists_numeral? {whole fraction exponent : List Char} (front : WholePart whole)
    (middle : FractionPart fraction) (last : ExponentPart exponent) :
    ∃ n, numeral? (whole ++ (fraction ++ exponent)) = some n := by
  obtain ⟨present, each⟩ := front.digit
  have stops := middle.ends last
  simp only [numeral?, takeWhile_isDigit each stops, dropWhile_isDigit each stops,
    List.isEmpty_eq_false_iff.mpr present]
  cases middle with
  | none =>
    cases last with
    | none => exact ⟨_, rfl⟩
    | power letter sign some digits =>
      obtain ⟨e, read⟩ := exists_exponent? sign some digits
      rcases letter with rfl | rfl <;> exact ⟨_, by simp [read]; rfl⟩
  | point _ digits =>
    have ends := last.ends
    simp only [List.cons_append, takeWhile_isDigit digits ends, dropWhile_isDigit digits ends]
    cases last with
    | none => exact ⟨_, rfl⟩
    | power letter sign some digits =>
      obtain ⟨e, read⟩ := exists_exponent? sign some digits
      rcases letter with rfl | rfl <;> exact ⟨_, by simp [read]; rfl⟩

theorem IsJsonNumber.exists_read? (number : IsJsonNumber text) : ∃ x, double.read? text = some x := by
  obtain ⟨negative, whole, fraction, exponent, shape, front, middle, last⟩ := number.parts
  obtain ⟨n, read⟩ := exists_numeral? front middle last
  obtain ⟨present, each⟩ := front.digit
  obtain ⟨c, rest, rfl⟩ := List.exists_cons_of_ne_nil present
  rw [List.cons_append] at read shape
  rw [read?_sign (each c List.mem_cons_self) shape, read]
  exact ⟨_, rfl⟩

/-! ## The characters of numbers -/

/-- The characters that numbers of JSON have. -/
def isNumberChar (c : Char) : Bool :=
  isDigit c || c == '.' || c == 'e' || c == 'E' || c == '+' || c == '-'

theorem isNumberChar_of_isDigit {c : Char} (digit : isDigit c = true) : isNumberChar c = true := by
  simp [isNumberChar, digit]

theorem isNumberChar_of_mem_sign {negative : Bool} {c : Char} (mem : c ∈ Layout.sign negative) :
    isNumberChar c = true := by
  cases negative with
  | true =>
    obtain rfl := List.mem_singleton.mp mem
    rfl
  | false => cases mem

theorem isNumberChar_of_mem_toDigits {n : ℕ} {c : Char} (mem : c ∈ Nat.toDigits 10 n) :
    isNumberChar c = true :=
  isNumberChar_of_isDigit (isDigit_of_mem_toDigits mem)

theorem IsJsonNumber.isNumberChar (number : IsJsonNumber text) :
    ∀ c ∈ text.toList, isNumberChar c = true := by
  obtain ⟨negative, whole, fraction, exponent, shape, front, middle, last⟩ := number.parts
  rw [shape]
  simp only [List.forall_mem_append]
  refine ⟨fun c => isNumberChar_of_mem_sign, fun c mem => isNumberChar_of_isDigit (front.digit.2 c mem),
    ?_, ?_⟩
  · cases middle with
    | none => exact List.forall_mem_nil _
    | point _ digits =>
      exact List.forall_mem_cons.mpr ⟨rfl, fun c mem => isNumberChar_of_isDigit (digits c mem)⟩
  · cases last with
    | none => exact List.forall_mem_nil _
    | power letter sign _ digits =>
      refine List.forall_mem_cons.mpr ⟨by rcases letter with rfl | rfl <;> rfl, ?_⟩
      refine List.forall_mem_append.mpr ⟨?_, fun c mem => isNumberChar_of_isDigit (digits c mem)⟩
      rcases sign with rfl | rfl | rfl
      · exact List.forall_mem_nil _
      · exact List.forall_mem_singleton.mpr rfl
      · exact List.forall_mem_singleton.mpr rfl

theorem isNumberChar_of_mem_aroundPoint {point : Bool} {decimal : Number} {c : Char}
    (mem : c ∈ aroundPoint point decimal) : isNumberChar c = true := by
  have zeros {n : ℕ} (zero : c ∈ List.replicate n '0') : isNumberChar c = true :=
    isNumberChar_of_isDigit (isDigit_of_mem_zeros zero)
  unfold aroundPoint at mem
  simp only at mem
  split at mem
  · simp only [List.mem_append] at mem
    rcases mem with (digit | zero) | fraction
    · exact isNumberChar_of_mem_toDigits digit
    · exact zeros zero
    · cases point with
      | true => rcases List.mem_pair.mp fraction with rfl | rfl <;> rfl
      | false => cases fraction
  split at mem
  · simp only [List.mem_append, List.mem_cons] at mem
    rcases mem with front | rfl | back
    · exact isNumberChar_of_mem_toDigits (List.mem_of_mem_take front)
    · rfl
    · exact isNumberChar_of_mem_toDigits (List.mem_of_mem_drop back)
  · simp only [List.mem_append, List.mem_cons] at mem
    rcases mem with rfl | rfl | zero | digit
    · rfl
    · rfl
    · exact zeros zero
    · exact isNumberChar_of_mem_toDigits digit

theorem isNumberChar_of_mem_scientific {decimal : Number} {c : Char} (mem : c ∈ scientific decimal) :
    isNumberChar c = true := by
  have power {exponent : ℤ} (mem : c ∈ exponentText exponent) : isNumberChar c = true := by
    rcases List.mem_cons.mp mem with rfl | digit
    · split <;> rfl
    · exact isNumberChar_of_mem_toDigits digit
  unfold scientific at mem
  simp only at mem
  split at mem
  · next first second rest digits =>
    have digit {d : Char} (here : d ∈ first :: second :: rest) : isNumberChar d = true :=
      isNumberChar_of_mem_toDigits (by rw [digits]; exact here)
    simp only [List.cons_append, List.mem_cons, List.mem_append] at mem
    rcases mem with rfl | rfl | rfl | back | rfl | last
    · exact digit (by simp)
    · rfl
    · exact digit (by simp)
    · exact digit (by simp [back])
    · rfl
    · exact power last
  · simp only [List.mem_cons, List.mem_append] at mem
    rcases mem with digit | rfl | last
    · exact isNumberChar_of_mem_toDigits digit
    · rfl
    · exact power last

theorem isNumberChar_of_mem_write (holds : double.Holds x) :
    ∀ c ∈ (asJson.write double x).toList, isNumberChar c = true := by
  cases x with
  | nan | infinite negative => exact holds.elim
  | finite negative significand exponent =>
    rw [write_finite]
    refine List.forall_mem_append.mpr ⟨fun c => isNumberChar_of_mem_sign, fun c mem => ?_⟩
    generalize asJson.written significand exponent = decimal at mem
    simp only [Layout.decimal, asJson] at mem
    split at mem
    · exact isNumberChar_of_mem_aroundPoint mem
    · exact isNumberChar_of_mem_scientific mem

theorem isNumberChar_of_mem_toString (n : ℤ) : ∀ c ∈ (toString n).toList, isNumberChar c = true := by
  cases n with
  | ofNat n =>
    rw [Int.ofNat_eq_natCast, toString_ofNat, toList_toString_nat]
    exact fun c => isNumberChar_of_mem_toDigits
  | negSucc n =>
    rw [toList_toString_negSucc]
    exact List.forall_mem_cons.mpr ⟨rfl, fun c => isNumberChar_of_mem_toDigits⟩

end Decimal

namespace Value

open Decimal (NotFinite IsJsonNumber double digits? unsigned)

/-! ## What number texts become -/

/-- What a number text becomes, and why. -/
inductive Becomes (text : String) : Json → Prop
  | whole {n : ℤ} : (JsonNumber.whole n).IsWord → digits? (unsigned text) = some n.natAbs →
      Becomes text (.number (.whole n))
  | real {x : Decimal.Binary} : double.read? text = some x → double.Holds x →
      Becomes text (.number (.real x))
  | null : NotFinite text → Becomes text .null
  | string : double.read? text = none → Becomes text (.string text)

theorem numberJson_becomes (text : String) : Becomes text (numberJson text) := by
  unfold numberJson
  split
  · next n read =>
    have bounds := (Option.filter_eq_some_iff.mp read).2
    simp only [Bool.and_eq_true, decide_eq_true_eq] at bounds
    refine .whole ⟨bounds.1, ?_⟩ (Decimal.digits?_of_integer? read)
    exact lt_of_le_of_lt bounds.2 (by decide)
  split
  · next n read =>
    have word : (n : ℤ) < Decimal.wordBound := by exact_mod_cast Decimal.natural?_lt read
    exact .whole ⟨by omega, word⟩ (Decimal.digits?_of_natural? read)
  split
  · next x read =>
    split
    · next finite => exact .real read (Decimal.holds_of_read? read finite)
    · next other => exact .null (Decimal.notFinite_iff.mpr ⟨x, read, by simpa using other⟩)
  · next read => exact .string read

variable {text : String}

theorem Becomes.word_lt {n : ℤ} (word : (JsonNumber.whole n).IsWord) : n.natAbs < Decimal.wordBound := by
  obtain ⟨low, high⟩ := word
  have half : 2 * Nat.pow 2 63 = Decimal.wordBound := by decide
  omega

/-- A number text becomes null just if it stands for no finite number of 64 bits. -/
theorem numberJson_eq_null_iff : numberJson text = .null ↔ NotFinite text := by
  have becomes := numberJson_becomes text
  constructor
  · intro null
    rw [null] at becomes
    cases becomes with
    | null lost => exact lost
  · intro lost
    obtain ⟨x, read, other⟩ := Decimal.notFinite_iff.mp lost
    have finite {y : Decimal.Binary} (found : double.read? text = some y)
        (fine : y.isFinite = true) : False := by
      cases read.symm.trans found
      rw [fine] at other
      cases other
    generalize numberJson text = json at becomes
    cases becomes with
    | whole word digits =>
      obtain ⟨y, found, fine⟩ := Decimal.finite_of_digits? digits (Becomes.word_lt word)
      exact (finite found fine).elim
    | real found holds => exact (finite found holds.isFinite).elim
    | null => rfl
    | string none => cases read.symm.trans none

/-- A number of JSON becomes a number that is held, or null. -/
theorem numberJson_of_isJsonNumber (number : IsJsonNumber text) :
    (∃ held : JsonNumber, held.IsHeld ∧ numberJson text = .number held) ∨
      NotFinite text ∧ numberJson text = .null := by
  obtain ⟨x, read⟩ := number.exists_read?
  have becomes := numberJson_becomes text
  generalize numberJson text = json at becomes
  cases becomes with
  | whole word _ => exact .inl ⟨.whole _, word, rfl⟩
  | real _ holds => exact .inl ⟨.real _, holds, rfl⟩
  | null lost => exact .inr ⟨lost, rfl⟩
  | string none => cases read.symm.trans none

/-! ## Texts that stay -/

/-- The text that stands for a number text in JSON. -/
def shownNumber (text : String) : String := (numberJson text).compact

/-- The text of a whole number of a machine word, or the shortest text of a finite number of 64 bits. -/
def Exact (text : String) : Prop :=
  IsWordText text ∨ ∃ x, double.Holds x ∧ text = Decimal.asJson.write double x

theorem quoted_ne (text : String) : Json.quoted text ≠ text := by
  intro same
  have longer (chars : List Char) : chars.length ≤ (chars.flatMap Json.unit).length := by
    induction chars with
    | nil => exact Nat.zero_le _
    | cons c chars ih =>
      have unit : 1 ≤ (Json.unit c).length := by
        unfold Json.unit
        split_ifs <;> simp
      rw [List.flatMap_cons, List.length_append, List.length_cons]
      omega
  have chars := congrArg (fun text => text.toList.length) same
  have enough := longer text.toList
  simp only [Json.toList_quoted, List.length_cons, List.length_append] at chars
  omega

/-- A number text is shown as it is just if it is the text that its number is written with. -/
theorem shownNumber_eq_iff : shownNumber text = text ↔ Exact text := by
  constructor
  · intro same
    have becomes := numberJson_becomes text
    unfold shownNumber at same
    generalize numberJson text = json at same becomes
    cases becomes with
    | whole word _ => exact .inl ⟨_, word, same.symm⟩
    | real _ holds => exact .inr ⟨_, holds, same.symm⟩
    | null lost =>
      -- the word for null is no number itself
      obtain ⟨x, read, -⟩ := Decimal.notFinite_iff.mp lost
      have none : double.read? "null" = none := by decide +kernel
      rw [← same] at read
      cases none.symm.trans read
    | string _ => exact absurd same (quoted_ne text)
  · unfold shownNumber
    rintro (⟨n, word, rfl⟩ | ⟨x, holds, rfl⟩)
    · rw [numberJson_toString word]
      rfl
    · have held : (JsonNumber.real x).IsHeld := holds
      have read := numberJson_numberText held
      rw [Json.numberText] at read
      rw [read]
      rfl

end Value

end XmlTemplate
