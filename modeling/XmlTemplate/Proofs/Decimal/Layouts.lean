import XmlTemplate.Proofs.Decimal.ReadBack

/-!
# Two layouts compared

A number as text never has an exponent, and a point only in front of a fraction. As a number in JSON it
has a point or an exponent in any case. The two layouts also differ in what they take of two equally
near decimals.

Results:
1. `aroundPoint_injective`: a decimal on a known grid is told from its text.
2. `write_eq_iff`: the numbers of 64 bits that both layouts write alike.
-/

namespace XmlTemplate.Decimal

/-- Digits around a point have no exponent. -/
theorem letter_not_mem_aroundPoint (point : Bool) (decimal : Number) :
    'e' ∉ aroundPoint point decimal := by
  have digits : 'e' ∉ Nat.toDigits 10 decimal.digits := fun member =>
    absurd (isDigit_of_mem_toDigits member) (by decide)
  unfold aroundPoint
  simp only
  split
  · cases point <;> simp [digits]
  split
  · rw [List.mem_append, List.mem_cons]
    rintro (front | letter | back)
    · exact digits (List.mem_of_mem_take front)
    · cases letter
    · exact digits (List.mem_of_mem_drop back)
  · simp [digits]

theorem point_not_mem_aroundPoint {decimal : Number} (whole : 0 ≤ decimal.exponent) :
    '.' ∉ aroundPoint false decimal := by
  rw [aroundPoint_of_nonneg whole, List.mem_append]
  rintro (digit | zero)
  · exact absurd (isDigit_of_mem_toDigits digit) (by decide)
  · exact absurd (isDigit_of_mem_zeros zero) (by decide)

/-- Whether a point is always written does not matter in front of a fraction. -/
theorem aroundPoint_of_neg (point : Bool) {decimal : Number} (part : decimal.exponent < 0) :
    aroundPoint point decimal = aroundPoint true decimal := by
  simp [aroundPoint, not_le_of_gt part]

/-- Decimals on one grid have different texts. -/
theorem aroundPoint_injective {one two : Number} (grid : one.exponent = two.exponent)
    (same : aroundPoint true one = aroundPoint true two) : one = two := by
  obtain ⟨n, read, value⟩ := aroundPoint_reads one
  obtain ⟨m, again, other⟩ := aroundPoint_reads two
  rw [same, again] at read
  obtain rfl := Option.some.inj read
  have power : (10 : ℚ) ^ two.exponent ≠ 0 := by positivity
  rw [value, decimalValue, decimalValue, grid, mul_left_inj' power, Nat.cast_inj] at other
  obtain ⟨digits, exponent⟩ := one
  obtain ⟨digits', exponent'⟩ := two
  cases grid
  cases other
  rfl

theorem written_exponent (layout other : Layout) (significand : ℕ) (exponent : ℤ) :
    (layout.written significand exponent).exponent = (other.written significand exponent).exponent := by
  unfold Layout.written
  split
  · rfl
  · exact search_exponent ..

/-- A number with a fraction, whose first digit is not far from the point and which has one nearest
decimal. -/
structure WrittenAlike (significand : ℕ) (exponent : ℤ) : Prop where
  fraction : (asJson.written significand exponent).exponent < 0
  near : -5 ≤ (asJson.written significand exponent).leading ∧
    (asJson.written significand exponent).leading ≤ 15
  single : asText.written significand exponent = asJson.written significand exponent

/-- The numbers of 64 bits that both layouts write alike. -/
theorem write_eq_iff (negative : Bool) (significand : ℕ) (exponent : ℤ) :
    asText.write double (.finite negative significand exponent) =
        asJson.write double (.finite negative significand exponent) ↔
      WrittenAlike significand exponent := by
  have grid := written_exponent asText asJson significand exponent
  have plain (decimal : Number) : asText.decimal decimal = aroundPoint false decimal := rfl
  rw [← String.toList_inj, write_finite, write_finite, List.append_cancel_left_eq, plain]
  constructor
  · intro same
    by_cases near : -5 ≤ (asJson.written significand exponent).leading ∧
        (asJson.written significand exponent).leading ≤ 15
    · have around : asJson.decimal (asJson.written significand exponent) =
          aroundPoint true (asJson.written significand exponent) := if_pos near
      rw [around] at same
      have fraction : (asJson.written significand exponent).exponent < 0 := by
        by_contra whole
        have point := point_mem_aroundPoint (asJson.written significand exponent)
        rw [← same] at point
        exact point_not_mem_aroundPoint (by rw [grid]; exact not_lt.mp whole) point
      rw [aroundPoint_of_neg false (by rw [grid]; exact fraction)] at same
      exact ⟨fraction, near, aroundPoint_injective grid same⟩
    · have exponential : asJson.decimal (asJson.written significand exponent) =
          scientific (asJson.written significand exponent) := if_neg near
      have letter := letter_mem_scientific (asJson.written significand exponent)
      rw [← exponential, ← same] at letter
      exact absurd letter (letter_not_mem_aroundPoint false _)
  · rintro ⟨fraction, near, single⟩
    have around : asJson.decimal (asJson.written significand exponent) =
        aroundPoint true (asJson.written significand exponent) := if_pos near
    rw [around, single, aroundPoint_of_neg false fraction]

end XmlTemplate.Decimal
