import Mathlib.Data.List.TakeWhile
import XmlTemplate.Decimal.Layout
import XmlTemplate.Decimal.Numeral
import XmlTemplate.Proofs.Decimal.Integer
import XmlTemplate.Proofs.Decimal.Search

/-!
# Numbers are read back from their JSON texts

The layout of a decimal moves its point and adds an exponent or zeros, but its value stays. So what
is read has the value of the shortest decimal, which is rounded to the number that was written.

Results:
1. `aroundPoint_reads`, `scientific_reads`: a numeral has the value of the decimal it is written for.
2. `read?_write`: a finite number of 64 bits is read back from its text.
3. `mark_mem_write`: its text tells it from a whole number.
-/

namespace XmlTemplate.Decimal

/-! ## Numerals -/

section Numerals

variable {whole fraction : List Char} (wholeDigits : ∀ c ∈ whole, isDigit c = true)
  (fractionDigits : ∀ c ∈ fraction, isDigit c = true) (present : whole ≠ [])

theorem exponent?_exponentText (exponent : ℤ) : exponent? (exponentText exponent) = some exponent := by
  unfold exponentText
  split
  · simp only [exponent?, digits?_toDigits, Option.map_some, Option.some.injEq, Int.ofNat_eq_natCast]
    omega
  · simp only [exponent?, digits?_toDigits, Option.map_some, Option.some.injEq, Int.ofNat_eq_natCast]
    omega

include wholeDigits present in
theorem numeral?_exponent (exponent : ℤ) :
    numeral? (whole ++ 'e' :: exponentText exponent) = some ⟨ofDigits whole, exponent⟩ := by
  have stops := ends_cons (c := 'e') (by decide) (exponentText exponent)
  simp [numeral?, takeWhile_isDigit wholeDigits stops, dropWhile_isDigit wholeDigits stops, present,
    exponent?_exponentText]

include wholeDigits fractionDigits present in
theorem numeral?_point :
    numeral? (whole ++ '.' :: fraction) =
      some ⟨ofDigits (whole ++ fraction), -(fraction.length : ℤ)⟩ := by
  have stops := ends_cons (c := '.') (by decide) fraction
  have all : fraction.takeWhile isDigit = fraction ∧ fraction.dropWhile isDigit = [] :=
    ⟨List.takeWhile_eq_self_iff.mpr fractionDigits, List.dropWhile_eq_nil_iff.mpr fractionDigits⟩
  simp [numeral?, takeWhile_isDigit wholeDigits stops, dropWhile_isDigit wholeDigits stops, present,
    all]

include wholeDigits fractionDigits present in
theorem numeral?_point_exponent (exponent : ℤ) :
    numeral? (whole ++ '.' :: (fraction ++ 'e' :: exponentText exponent)) =
      some ⟨ofDigits (whole ++ fraction), -(fraction.length : ℤ) + exponent⟩ := by
  have stops := ends_cons (c := '.') (by decide) (fraction ++ 'e' :: exponentText exponent)
  have ends := ends_cons (c := 'e') (by decide) (exponentText exponent)
  simp [numeral?, takeWhile_isDigit wholeDigits stops, dropWhile_isDigit wholeDigits stops, present,
    takeWhile_isDigit fractionDigits ends, dropWhile_isDigit fractionDigits ends,
    exponent?_exponentText]

end Numerals

/-! ## Layouts -/

theorem ofDigits_append_zeros (digits : List Char) (n : ℕ) :
    ofDigits (digits ++ List.replicate n '0') = 10 ^ n * ofDigits digits := by
  show Nat.ofDigitChars 10 _ 0 = _
  rw [Nat.ofDigitChars_append, Nat.ofDigitChars_replicate_zero]
  rfl

/-- A decimal with its digits around the point is read with its value. -/
theorem aroundPoint_reads (decimal : Number) :
    ∃ numeral, numeral? (aroundPoint true decimal) = some numeral ∧
      decimalValue numeral.digits numeral.exponent = decimalValue decimal.digits decimal.exponent := by
  obtain ⟨digits, exponent⟩ := decimal
  have each : ∀ c ∈ Nat.toDigits 10 digits, isDigit c = true :=
    fun c member => isDigit_of_mem_toDigits member
  have present : Nat.toDigits 10 digits ≠ [] := Nat.toDigits_ne_nil
  have zero : ∀ c ∈ ['0'], isDigit c = true := List.forall_mem_singleton.mpr (by decide)
  rcases le_or_gt 0 exponent with whole | part
  · -- zeros stand at the end, and one more after the point
    obtain ⟨n, rfl⟩ := Int.eq_ofNat_of_zero_le whole
    have padded : ∀ c ∈ Nat.toDigits 10 digits ++ List.replicate n '0', isDigit c = true :=
      fun c member => (List.mem_append.mp member).elim (each c) isDigit_of_mem_zeros
    have read : numeral? (Nat.toDigits 10 digits ++ List.replicate n '0' ++ '.' :: ['0']) =
        some ⟨10 ^ (n + 1) * digits, -1⟩ := by
      rw [numeral?_point padded zero (by simp [present]), List.append_assoc,
        ← List.replicate_succ', ofDigits_append_zeros, ofDigits_toDigits]
      rfl
    refine ⟨_, by simpa [aroundPoint] using read, ?_⟩
    simp only [decimalValue, Nat.cast_mul, Nat.cast_pow, Nat.cast_ofNat, zpow_neg, zpow_one,
      zpow_natCast]
    ring
  · obtain ⟨places, same⟩ := Int.eq_ofNat_of_zero_le (show 0 ≤ -exponent by omega)
    obtain rfl : exponent = -(places : ℤ) := by omega
    refine ⟨⟨digits, -(places : ℤ)⟩, ?_, rfl⟩
    simp only [aroundPoint, neg_neg, Int.toNat_natCast, if_neg (not_le_of_gt part)]
    split
    · -- the point stands between two digits
      rename_i fewer
      rw [numeral?_point (fun c member => each c (List.mem_of_mem_take member))
        (fun c member => each c (List.mem_of_mem_drop member)) (by simp [present]; omega),
        List.take_append_drop, ofDigits_toDigits, List.length_drop]
      congr 3
      omega
    · -- the point stands before the first digit
      rename_i more
      have zeros : ∀ c ∈ List.replicate (places - (Nat.toDigits 10 digits).length) '0' ++
          Nat.toDigits 10 digits, isDigit c = true :=
        fun c member => (List.mem_append.mp member).elim isDigit_of_mem_zeros (each c)
      show numeral? (['0'] ++ '.' :: (_ ++ _)) = _
      rw [numeral?_point zero zeros (by simp), List.length_append, List.length_replicate,
        Nat.sub_add_cancel (Nat.le_of_not_lt more), List.singleton_append, ← List.cons_append,
        ← List.replicate_succ, ofDigits_zeros_append, ofDigits_toDigits]

/-- A decimal with an exponent is read as it is. -/
theorem scientific_reads (decimal : Number) :
    numeral? (scientific decimal) = some ⟨decimal.digits, decimal.exponent⟩ := by
  have each : ∀ c ∈ Nat.toDigits 10 decimal.digits, isDigit c = true :=
    fun c member => isDigit_of_mem_toDigits member
  have value := ofDigits_toDigits decimal.digits
  have leading : decimal.leading =
      decimal.exponent + (Nat.toDigits 10 decimal.digits).length - 1 := rfl
  unfold scientific
  cases shape : Nat.toDigits 10 decimal.digits with
  | nil => exact absurd shape Nat.toDigits_ne_nil
  | cons first rest =>
    rw [shape] at each value leading
    cases rest with
    | nil =>
      have read := numeral?_exponent each (by simp) decimal.leading
      rw [value, leading, List.length_singleton, Nat.cast_one, add_sub_cancel_right] at read
      rw [leading, List.length_singleton, Nat.cast_one, add_sub_cancel_right]
      exact read
    | cons second rest =>
      have exponent : -((second :: rest).length : ℤ) + decimal.leading = decimal.exponent := by
        rw [leading]
        simp only [List.length_cons]
        omega
      show numeral? ([first] ++ '.' :: (second :: rest ++ 'e' :: exponentText decimal.leading)) = _
      rw [numeral?_point_exponent (fun c member => each c (by simp_all))
        (fun c member => each c (List.mem_cons_of_mem _ member)) (by simp), List.singleton_append,
        value, exponent]

/-! ## Texts -/

/-- A decimal in JSON is read with its value. -/
theorem decimal_reads (decimal : Number) :
    ∃ numeral, numeral? (asJson.decimal decimal) = some numeral ∧
      decimalValue numeral.digits numeral.exponent = decimalValue decimal.digits decimal.exponent := by
  simp only [Layout.decimal, asJson]
  split
  · exact aroundPoint_reads decimal
  · exact ⟨_, scientific_reads decimal, rfl⟩

/-- A decimal in JSON starts with a digit. -/
theorem decimal_starts (decimal : Number) :
    ∃ c rest, asJson.decimal decimal = c :: rest ∧ isDigit c = true := by
  obtain ⟨c, rest, shape, digit⟩ := toDigits_starts decimal.digits
  simp only [Layout.decimal, asJson]
  split
  · unfold aroundPoint
    simp only
    split
    · exact ⟨c, _, by rw [shape]; rfl, digit⟩
    split
    · rename_i fewer
      obtain ⟨k, some⟩ := Nat.exists_eq_succ_of_ne_zero (Nat.sub_ne_zero_of_lt fewer)
      exact ⟨c, _, by rw [some, shape]; rfl, digit⟩
    · exact ⟨'0', _, rfl, rfl⟩
  · unfold scientific
    rw [shape]
    cases rest with
    | nil => exact ⟨c, _, rfl, digit⟩
    | cons second rest => exact ⟨c, _, rfl, digit⟩

theorem point_mem_aroundPoint (decimal : Number) : '.' ∈ aroundPoint true decimal := by
  unfold aroundPoint
  simp only
  split
  · simp
  split <;> simp

theorem letter_mem_scientific (decimal : Number) : 'e' ∈ scientific decimal := by
  unfold scientific
  simp only
  split <;> simp

/-- A decimal in JSON has a point or an exponent. -/
theorem mark_mem_decimal (decimal : Number) :
    '.' ∈ asJson.decimal decimal ∨ 'e' ∈ asJson.decimal decimal := by
  simp only [Layout.decimal, asJson]
  split
  · exact .inl (point_mem_aroundPoint decimal)
  · exact .inr (letter_mem_scientific decimal)

theorem toLower_of_isDigit {c : Char} (digit : isDigit c = true) : c.toLower = c := by
  have small : ¬ ('A' ≤ c ∧ c ≤ 'Z') := by
    simp only [isDigit, Bool.and_eq_true, decide_eq_true_eq] at digit
    exact fun letter => absurd (Char.le_trans letter.1 digit.2) (by decide)
  exact dif_neg small

/-- A text that starts with a digit is no word. -/
theorem readUnsigned?_of_digit {width : Width} (negative : Bool) {c : Char} (digit : isDigit c = true)
    (rest : List Char) :
    width.readUnsigned? negative (c :: rest) =
      (numeral? (c :: rest)).map fun n => width.ofDecimal negative n.digits n.exponent := by
  have word {first : Char} (letter : isDigit first = false) (text : List Char) :
      lower (c :: rest) ≠ first :: text := by
    intro same
    rw [lower, List.map_cons, toLower_of_isDigit digit, List.cons.injEq] at same
    rw [same.1, letter] at digit
    cases digit
  have infinite : ¬ (lower (c :: rest) = "inf".toList ∨ lower (c :: rest) = "infinity".toList) :=
    fun either => either.elim (word (by decide) _) (word (by decide) _)
  have nan : lower (c :: rest) ≠ "nan".toList := word (by decide) _
  rw [Width.readUnsigned?, if_neg infinite, if_neg nan]

/-- A text whose first character after its sign is a digit. -/
theorem read?_sign {width : Width} {text : String} {negative : Bool} {c : Char} {rest : List Char}
    (digit : isDigit c = true) (shape : text.toList = Layout.sign negative ++ c :: rest) :
    width.read? text =
      (numeral? (c :: rest)).map fun n => width.ofDecimal negative n.digits n.exponent := by
  rw [← readUnsigned?_of_digit negative digit, Width.read?, shape]
  cases negative with
  | true => rfl
  | false =>
    have sign {other : Char} (outside : isDigit other = false) (text : List Char) :
        c :: rest ≠ other :: text := by
      rintro ⟨⟩
      rw [outside] at digit
      cases digit
    simp only [Layout.sign, Bool.false_eq_true, if_false, List.nil_append]
    split
    · rename_i text same
      exact absurd same (sign (by decide) text)
    · rename_i text same
      exact absurd same (sign (by decide) text)
    · rfl

/-! ## Numbers -/

/-- The finite numbers of a width, each in one way. Zero has the least exponent. -/
def Width.Holds (width : Width) : Binary → Prop
  | .finite _ significand exponent =>
    if significand = 0 then exponent = width.least else width.Has significand exponent
  | _ => False

/-- The decimal that a number of 64 bits is written with. -/
def Layout.written (layout : Layout) (significand : ℕ) (exponent : ℤ) : Number :=
  if significand = 0 then ⟨0, 0⟩ else shortest double layout.tie significand exponent

theorem write_finite (layout : Layout) (negative : Bool) (significand : ℕ) (exponent : ℤ) :
    (layout.write double (.finite negative significand exponent)).toList =
      Layout.sign negative ++ layout.decimal (layout.written significand exponent) := by
  cases significand with
  | zero => simp [Layout.write, Layout.written]
  | succ n => simp [Layout.write, Layout.written]

/-- A decimal with the value that a number is written with is rounded to the number. -/
theorem ofDecimal_written {negative : Bool} {significand : ℕ} {exponent : ℤ}
    (holds : double.Holds (.finite negative significand exponent)) {digits : ℕ} {power : ℤ}
    (same : decimalValue digits power =
      decimalValue (asJson.written significand exponent).digits
        (asJson.written significand exponent).exponent) :
    double.ofDecimal negative digits power = .finite negative significand exponent := by
  by_cases zero : significand = 0
  · obtain rfl : exponent = double.least := by simpa [Width.Holds, zero] using holds
    have positive : (10 : ℚ) ^ power ≠ 0 := by positivity
    have nothing : digits = 0 := by simpa [Layout.written, zero, decimalValue, positive] using same
    rw [Width.ofDecimal, if_pos nothing, zero]
  · have has : double.Has significand exponent := by simpa [Width.Holds, zero] using holds
    rw [Layout.written, if_neg zero] at same
    exact ofDecimal_of_reads negative has (by rw [same]; exact shortest_reads asJson.tie has)

variable {x : Binary}

/-- A finite number of 64 bits is read back from its text. -/
theorem read?_write (holds : double.Holds x) : double.read? (asJson.write double x) = some x := by
  cases x with
  | nan | infinite negative => exact holds.elim
  | finite negative significand exponent =>
    obtain ⟨n, read, same⟩ := decimal_reads (asJson.written significand exponent)
    obtain ⟨c, rest, shape, digit⟩ := decimal_starts (asJson.written significand exponent)
    have text := write_finite asJson negative significand exponent
    rw [shape] at read text
    rw [read?_sign digit text, read, Option.map_some, ofDecimal_written holds same]

/-- The text of a finite number has a point or an exponent, and so differs from that of any whole
number. -/
theorem mark_mem_write (holds : double.Holds x) :
    ∃ c ∈ (asJson.write double x).toList, c = '.' ∨ c = 'e' := by
  cases x with
  | nan | infinite negative => exact holds.elim
  | finite negative significand exponent =>
    rw [write_finite]
    rcases mark_mem_decimal (asJson.written significand exponent) with point | letter
    · exact ⟨'.', List.mem_append_right _ point, .inl rfl⟩
    · exact ⟨'e', List.mem_append_right _ letter, .inr rfl⟩

end XmlTemplate.Decimal
