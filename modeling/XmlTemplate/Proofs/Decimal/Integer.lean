import XmlTemplate.Decimal.Integer

/-!
# Whole numbers and their texts

The text of a whole number is read as this number if it lies in the range, and a text with any
character besides digits and a sign is no whole number.

Results:
1. `digits?_toDigits`: the digits of a number are read as the number.
2. `natural?_toString`, `integer?_toString`: what the text of a whole number is read as.
3. `natural?_eq_none`, `integer?_eq_none`: what no whole number is.
-/

namespace XmlTemplate.Decimal

/-! ## Digits -/

theorem isDigit_of_mem_toDigits {n : Nat} {c : Char} (member : c ∈ Nat.toDigits 10 n) :
    isDigit c = true := by
  have digit := Nat.isDigit_of_mem_toDigits (by omega) (by omega) member
  simpa [Char.isDigit, isDigit, Char.le_def] using digit

theorem ends_cons {c : Char} (other : isDigit c = false) (rest : List Char) :
    ∀ d, (c :: rest).head? = some d → isDigit d = false := by
  rintro d ⟨⟩
  exact other

/-- The digits at the beginning of a text end where something else stands. -/
theorem takeWhile_isDigit {digits rest : List Char} (each : ∀ c ∈ digits, isDigit c = true)
    (ends : ∀ c, rest.head? = some c → isDigit c = false) :
    (digits ++ rest).takeWhile isDigit = digits := by
  rw [List.takeWhile_append_of_pos each]
  cases rest with
  | nil => simp
  | cons c rest => simp [ends c rfl]

theorem dropWhile_isDigit {digits rest : List Char} (each : ∀ c ∈ digits, isDigit c = true)
    (ends : ∀ c, rest.head? = some c → isDigit c = false) :
    (digits ++ rest).dropWhile isDigit = rest := by
  rw [List.dropWhile_append_of_pos each]
  cases rest with
  | nil => rfl
  | cons c rest => simp [ends c rfl]

theorem ofDigits_toDigits (n : Nat) : ofDigits (Nat.toDigits 10 n) = n :=
  Nat.ofDigitChars_ten_toDigits

theorem ofDigits_zeros_append (digits : List Char) (n : Nat) :
    ofDigits (List.replicate n '0' ++ digits) = ofDigits digits := by
  show Nat.ofDigitChars 10 _ 0 = _
  rw [Nat.ofDigitChars_append, Nat.ofDigitChars_replicate_zero, Nat.mul_zero]
  rfl

theorem isDigit_of_mem_zeros {n : Nat} {c : Char} (member : c ∈ List.replicate n '0') :
    isDigit c = true := by
  rw [List.eq_of_mem_replicate member]
  decide

theorem digits?_toDigits (n : Nat) : digits? (Nat.toDigits 10 n) = some n := by
  have present : (Nat.toDigits 10 n).isEmpty = false := by simp [Nat.toDigits_ne_nil]
  have digits : (Nat.toDigits 10 n).all isDigit = true :=
    List.all_eq_true.mpr fun c member => isDigit_of_mem_toDigits member
  rw [digits?, present, digits, ofDigits_toDigits]
  rfl

theorem digits?_eq_none {text : List Char} {c : Char} (member : c ∈ text)
    (other : isDigit c = false) : digits? text = none := by
  have fails : text.all isDigit = false := List.all_eq_false.mpr ⟨c, member, by simp [other]⟩
  simp [digits?, fails]

theorem toDigits_starts (n : Nat) :
    ∃ c rest, Nat.toDigits 10 n = c :: rest ∧ isDigit c = true := by
  cases shape : Nat.toDigits 10 n with
  | nil => exact absurd shape Nat.toDigits_ne_nil
  | cons c rest => exact ⟨c, rest, rfl, isDigit_of_mem_toDigits (n := n) (by simp [shape])⟩

theorem toList_toString_nat (n : Nat) : (toString n).toList = Nat.toDigits 10 n := by
  rw [Nat.toString_eq_ofList_toDigits, String.toList_ofList]

theorem toString_ofNat (n : Nat) : toString (n : Int) = toString n := rfl

theorem toList_toString_negSucc (n : Nat) :
    (toString (Int.negSucc n)).toList = '-' :: Nat.toDigits 10 (n + 1) := by
  rw [show toString (Int.negSucc n) = "-" ++ (n + 1).repr from rfl, String.toList_append,
    Nat.repr_eq_ofList_toDigits, String.toList_ofList]
  simp

/-- A digit is no sign. -/
theorem toDigits_ne_sign {n : Nat} {sign : Char} (other : isDigit sign = false) (rest : List Char) :
    Nat.toDigits 10 n ≠ sign :: rest := by
  intro same
  have digit := isDigit_of_mem_toDigits (n := n) (c := sign) (by simp [same])
  simp [other] at digit

/-! ## Natural numbers -/

theorem natural?_toString (bound : Nat) (n : Int) :
    natural? bound (toString n) = if 0 ≤ n ∧ n < bound then some n.toNat else none := by
  cases n with
  | ofNat n =>
    have read : natural? bound (toString n) = (some n).filter (· < bound) := by
      unfold natural?
      rw [toList_toString_nat]
      split
      · rename_i digits same
        exact absurd same (toDigits_ne_sign (by decide) digits)
      · rw [digits?_toDigits]
    rw [Int.ofNat_eq_natCast, toString_ofNat, read]
    simp [Option.filter_some]
  | negSucc n =>
    unfold natural?
    rw [toList_toString_negSucc]
    simp [digits?, isDigit]

theorem natural?_eq_none {bound : Nat} {text : String} {c : Char} (member : c ∈ text.toList)
    (other : isDigit c = false) (plus : c ≠ '+') : natural? bound text = none := by
  unfold natural?
  split
  · rename_i digits shape
    rw [shape] at member
    rw [digits?_eq_none ((List.mem_cons.mp member).resolve_left plus) other]
    rfl
  · rw [digits?_eq_none member other]
    rfl

/-! ## Whole numbers -/

theorem integer?_toString (least greatest n : Int) :
    integer? least greatest (toString n) =
      if least ≤ n ∧ n ≤ greatest then some n else none := by
  have read : integer? least greatest (toString n) =
      (some n).filter fun n => decide (least ≤ n) && decide (n ≤ greatest) := by
    unfold integer?
    cases n with
    | ofNat n =>
      rw [Int.ofNat_eq_natCast, toString_ofNat, toList_toString_nat]
      split
      · rename_i digits same
        exact absurd same (toDigits_ne_sign (by decide) digits)
      · rename_i digits same
        exact absurd same (toDigits_ne_sign (by decide) digits)
      · rw [digits?_toDigits]
        rfl
    | negSucc n =>
      rw [toList_toString_negSucc]
      simp only [digits?_toDigits]
      rfl
  rw [read, Option.filter_some]
  simp

theorem integer?_eq_none {least greatest : Int} {text : String} {c : Char}
    (member : c ∈ text.toList) (other : isDigit c = false) (plus : c ≠ '+') (minus : c ≠ '-') :
    integer? least greatest text = none := by
  unfold integer?
  split
  · rename_i digits shape
    rw [shape] at member
    rw [digits?_eq_none ((List.mem_cons.mp member).resolve_left plus) other]
    rfl
  · rename_i digits shape
    rw [shape] at member
    rw [digits?_eq_none ((List.mem_cons.mp member).resolve_left minus) other]
    rfl
  · rw [digits?_eq_none member other]
    rfl

end XmlTemplate.Decimal
