import Mathlib.Algebra.Order.Field.Power
import Mathlib.Tactic.FieldSimp
import Mathlib.Tactic.Linarith
import Mathlib.Tactic.Positivity
import Mathlib.Tactic.Ring
import XmlTemplate.Decimal.Shortest

/-!
# Rounding to the nearest number

Everything in the interval of a number is rounded to this number. The interval reaches halfway to the
neighbours of the number, and its ends belong to it if the significand is even. Below a power of two
the neighbour is nearer, and there a fraction is rounded with one bit more.

Results:
1. `roundQuotient_eq`: what a fraction within one half of a whole number is rounded to.
2. `exponentOf_eq`, `exponentOf_eq_least`: the exponent of the last bit of a fraction.
3. `nearest_of_reads`: a fraction in the interval of a number is rounded to it.
4. `ofDecimal_of_reads`: so is a decimal, however large or small its exponent is.
-/

namespace XmlTemplate.Decimal

/-! ## Powers and fractions -/

/-- A power whose exponent may be negative as a quotient of two whole powers. -/
theorem zpow_mul_pow_neg {base : ℚ} (nonzero : base ≠ 0) (exponent : ℤ) :
    base ^ exponent * base ^ (-exponent).toNat = base ^ exponent.toNat := by
  rcases le_total 0 exponent with up | down
  · obtain ⟨n, rfl⟩ := Int.eq_ofNat_of_zero_le up
    simp
  · obtain ⟨n, same⟩ := Int.eq_ofNat_of_zero_le (Int.neg_nonneg_of_nonpos down)
    obtain rfl : exponent = -(n : ℤ) := by omega
    simp [nonzero]

theorem scaled_div (num den : ℕ) (exponent : ℤ) :
    ((scaled num den exponent).1 : ℚ) / (scaled num den exponent).2 =
      num / den / 2 ^ exponent := by
  have power := zpow_mul_pow_neg (two_ne_zero (α := ℚ)) exponent
  have positive : (0 : ℚ) < 2 ^ exponent := by positivity
  unfold scaled
  split
  · rename_i up
    rw [show (-exponent).toNat = 0 by omega, pow_zero, mul_one] at power
    rw [power, div_div]
    simp
  · rename_i down
    rw [show exponent.toNat = 0 by omega, pow_zero] at power
    rw [div_right_comm, div_eq_mul_inv (num : ℚ), ← eq_inv_of_mul_eq_one_right power]
    simp

/-- A fraction is so many units of two to the power `exponent`. -/
theorem div_eq_scaled (num den : ℕ) (exponent : ℤ) :
    (num / den : ℚ) =
      (scaled num den exponent).1 / (scaled num den exponent).2 * 2 ^ exponent := by
  have positive : (0 : ℚ) < 2 ^ exponent := by positivity
  rw [scaled_div, div_mul_cancel₀ _ positive.ne']

theorem scaled_pos (num : ℕ) {den : ℕ} (pos : 0 < den) (exponent : ℤ) :
    0 < (scaled num den exponent).2 := by
  unfold scaled
  split
  · exact Nat.mul_pos pos (Nat.pow_pos (by omega))
  · exact pos

/-! ## Whole numbers -/

/-- A fraction within one half of a whole number is rounded to it. If it is just one half away, the
whole number has to be even. -/
theorem roundQuotient_eq {num den r : ℕ} (pos : 0 < den)
    (low : 2 * (r * den) ≤ 2 * num + den) (high : 2 * num ≤ 2 * (r * den) + den)
    (tie : r % 2 = 0 ∨ (2 * (r * den) < 2 * num + den ∧ 2 * num < 2 * (r * den) + den)) :
    roundQuotient num den = r := by
  have split := Nat.div_add_mod num den
  have small := Nat.mod_lt num pos
  rw [Nat.mul_comm] at split
  have below : num / den ≤ r := by
    by_contra above
    have := Nat.mul_le_mul_right den (show r + 1 ≤ num / den by omega)
    rw [Nat.add_mul] at this
    omega
  have above : r ≤ num / den + 1 := by
    by_contra below
    have := Nat.mul_le_mul_right den (show num / den + 2 ≤ r by omega)
    rw [Nat.add_mul] at this
    omega
  unfold roundQuotient
  rcases show r = num / den ∨ r = num / den + 1 by omega with same | same
  · rw [← same] at split ⊢
    simp only
    split_ifs <;> omega
  · rw [same, Nat.add_mul] at low high tie
    simp only
    split_ifs <;> omega

/-! ## Exponents -/

variable {width : Width} {num den : ℕ}

/-- The exponent before rounding is found from the greatest power of two that a fraction reaches. -/
theorem exponentOf_spec (width : Width) (numPos : 0 < num) (denPos : 0 < den) :
    ∃ top : ℤ, 2 ^ top ≤ (num / den : ℚ) ∧ (num / den : ℚ) < 2 ^ (top + 1) ∧
      width.exponentOf num den = max width.least (top - (width.bits - 1 : ℕ)) := by
  have numPos' : (0 : ℚ) < num := by exact_mod_cast numPos
  have denPos' : (0 : ℚ) < den := by exact_mod_cast denPos
  have numLow : (2 : ℚ) ^ num.log2 ≤ num := by exact_mod_cast Nat.log2_self_le (by omega)
  have numHigh : (num : ℚ) < 2 ^ (num.log2 + 1) := by exact_mod_cast Nat.lt_log2_self
  have denLow : (2 : ℚ) ^ den.log2 ≤ den := by exact_mod_cast Nat.log2_self_le (by omega)
  have denHigh : (den : ℚ) < 2 ^ (den.log2 + 1) := by exact_mod_cast Nat.lt_log2_self
  let guess : ℤ := (num.log2 : ℤ) - (den.log2 : ℤ)
  have power (a b : ℕ) : (2 : ℚ) ^ ((a : ℤ) - (b : ℤ)) = 2 ^ a / 2 ^ b := by
    rw [zpow_sub₀ two_ne_zero, zpow_natCast, zpow_natCast]
  -- the logarithms leave two powers to choose from
  have low : (2 : ℚ) ^ (guess - 1) ≤ num / den := by
    rw [show guess - 1 = (num.log2 : ℤ) - ((den.log2 + 1 : ℕ) : ℤ) by omega, power]
    exact div_le_div₀ numPos'.le numLow denPos' denHigh.le
  have high : (num / den : ℚ) < 2 ^ (guess + 1) := by
    rw [show guess + 1 = ((num.log2 + 1 : ℕ) : ℤ) - (den.log2 : ℤ) by omega, power]
    exact div_lt_div₀ numHigh denLow (by positivity) (by positivity)
  have reached : (scaled num den guess).2 ≤ (scaled num den guess).1 ↔
      (2 : ℚ) ^ guess ≤ num / den := by
    have positive : (0 : ℚ) < (scaled num den guess).2 := by exact_mod_cast scaled_pos num denPos guess
    rw [← Nat.cast_le (α := ℚ), ← one_le_div positive, scaled_div, one_le_div (by positivity)]
  by_cases top : (2 : ℚ) ^ guess ≤ num / den
  · refine ⟨guess, top, high, ?_⟩
    simp only [Width.exponentOf]
    rw [if_pos (reached.mpr top)]
  · refine ⟨guess - 1, low, by rw [sub_add_cancel]; exact lt_of_not_ge top, ?_⟩
    simp only [Width.exponentOf]
    rw [if_neg fun most => top (reached.mp most)]

/-- A fraction with as many bits as the width has. -/
theorem exponentOf_eq (denPos : 0 < den) (bits : 0 < width.bits) {exponent : ℤ}
    (least : width.least ≤ exponent)
    (low : (2 : ℚ) ^ (exponent + width.bits - 1) ≤ num / den)
    (high : (num / den : ℚ) < 2 ^ (exponent + width.bits)) :
    width.exponentOf num den = exponent := by
  have numPos : 0 < num := by
    rcases Nat.eq_zero_or_pos num with rfl | pos
    · have positive : (0 : ℚ) < 2 ^ (exponent + width.bits - 1) := by positivity
      simp only [Nat.cast_zero, zero_div] at low
      exact absurd positive (not_lt_of_ge low)
    · exact pos
  obtain ⟨top, reached, below, same⟩ := exponentOf_spec width numPos denPos
  have above := (zpow_lt_zpow_iff_right₀ one_lt_two).mp (lt_of_le_of_lt low below)
  have under := (zpow_lt_zpow_iff_right₀ one_lt_two).mp (lt_of_le_of_lt reached high)
  rw [same]
  omega

/-- A fraction below the greatest number with the least exponent. -/
theorem exponentOf_eq_least (numPos : 0 < num) (denPos : 0 < den) (bits : 0 < width.bits)
    (high : (num / den : ℚ) < 2 ^ (width.least + width.bits)) :
    width.exponentOf num den = width.least := by
  obtain ⟨top, reached, below, same⟩ := exponentOf_spec width numPos denPos
  have under := (zpow_lt_zpow_iff_right₀ one_lt_two).mp (lt_of_le_of_lt reached high)
  rw [same]
  omega

/-! ## The interval of a number -/

/-- The finite numbers of a width besides zero, each in one way: with all bits of the width or with
the least exponent. -/
structure Width.Has (width : Width) (significand : ℕ) (exponent : ℤ) : Prop where
  positive : 0 < significand
  small : significand < 2 ^ width.bits
  least : width.least ≤ exponent
  greatest : exponent ≤ width.greatest
  normal : exponent ≠ width.least → 2 ^ (width.bits - 1) ≤ significand

/-- A value lies in an interval whose unit has a size. -/
structure Interval.Reads (interval : Interval) (unit value : ℚ) : Prop where
  low : interval.low * unit ≤ value
  high : value ≤ interval.high * unit
  inside : interval.closed = true ∨ (interval.low * unit < value ∧ value < interval.high * unit)

theorem roundQuotient_scaled (denPos : 0 < den) {exponent : ℤ} {r : ℕ}
    (low : (2 * r - 1) * 2 ^ exponent ≤ 2 * (num / den : ℚ))
    (high : 2 * (num / den : ℚ) ≤ (2 * r + 1) * 2 ^ exponent)
    (tie : r % 2 = 0 ∨ ((2 * r - 1) * 2 ^ exponent < 2 * (num / den : ℚ) ∧
      2 * (num / den : ℚ) < (2 * r + 1) * 2 ^ exponent)) :
    roundQuotient (scaled num den exponent).1 (scaled num den exponent).2 = r := by
  have positive : (0 : ℚ) < 2 ^ exponent := by positivity
  have ratio := div_eq_scaled num den exponent
  have pos := scaled_pos num denPos exponent
  generalize (scaled num den exponent).1 = p at ratio ⊢
  generalize (scaled num den exponent).2 = q at ratio pos ⊢
  have pos' : (0 : ℚ) < q := by exact_mod_cast pos
  rw [ratio, ← mul_assoc] at low high tie
  simp only [mul_le_mul_iff_left₀ positive, mul_lt_mul_iff_left₀ positive, mul_div_assoc'] at low high tie
  rw [le_div_iff₀ pos'] at low
  rw [div_le_iff₀ pos'] at high
  rw [lt_div_iff₀ pos', div_lt_iff₀ pos'] at tie
  refine roundQuotient_eq pos ?_ ?_ (tie.imp_right fun both => ⟨?_, ?_⟩)
  · have : (2 * (r * q) : ℚ) ≤ 2 * p + q := by linarith
    exact_mod_cast this
  · have : (2 * p : ℚ) ≤ 2 * (r * q) + q := by linarith
    exact_mod_cast this
  · have : (2 * (r * q) : ℚ) < 2 * p + q := by linarith [both.1]
    exact_mod_cast this
  · have : (2 * p : ℚ) < 2 * (r * q) + q := by linarith [both.2]
    exact_mod_cast this

section Nearest

variable {significand : ℕ} {exponent : ℤ}

theorem bits_pos {r bits : ℕ} (positive : 0 < r) (small : r < 2 ^ bits) : 0 < bits := by
  rcases Nat.eq_zero_or_pos bits with rfl | some
  · rw [pow_zero] at small
    exact absurd positive (by omega)
  · exact some

/-- A fraction that is rounded with all bits of the width or with the least exponent, and that needs
no bit more. -/
theorem nearest_of_near (negative : Bool) (denPos : 0 < den) {r : ℕ} (positive : 0 < r)
    (small : r < 2 ^ width.bits) (least : width.least ≤ exponent)
    (greatest : exponent ≤ width.greatest)
    (reached : exponent = width.least ∨ 2 ^ (exponent + width.bits - 1) ≤ (num / den : ℚ))
    (low : (2 * r - 1) * 2 ^ exponent ≤ 2 * (num / den : ℚ))
    (high : 2 * (num / den : ℚ) ≤ (2 * r + 1) * 2 ^ exponent)
    (tie : r % 2 = 0 ∨ ((2 * r - 1) * 2 ^ exponent < 2 * (num / den : ℚ) ∧
      2 * (num / den : ℚ) < (2 * r + 1) * 2 ^ exponent)) :
    width.nearest negative num den = .finite negative r exponent := by
  have unitPos : (0 : ℚ) < 2 ^ exponent := by positivity
  have one : (1 : ℚ) ≤ r := by exact_mod_cast positive
  have most : (r : ℚ) + 1 ≤ 2 ^ width.bits := by exact_mod_cast small
  have bits := bits_pos positive small
  have below : (num / den : ℚ) < 2 ^ (exponent + width.bits) := by
    rw [zpow_add₀ two_ne_zero, zpow_natCast]
    nlinarith
  have numPos : 0 < num := by
    rcases Nat.eq_zero_or_pos num with rfl | some
    · simp only [Nat.cast_zero, zero_div, mul_zero] at low
      nlinarith
    · exact some
  have found : width.exponentOf num den = exponent := by
    rcases reached with rfl | reached
    · exact exponentOf_eq_least numPos denPos bits below
    · exact exponentOf_eq denPos bits least reached below
  have rounded := roundQuotient_scaled denPos low high tie
  simp [Width.nearest, numPos.ne', found, rounded, small.ne, not_lt_of_ge greatest]

/-- A fraction that is rounded up to a power of two needs one bit more, which goes into the exponent. -/
theorem nearest_of_carry (negative : Bool) (denPos : 0 < den) (bits : 0 < width.bits)
    (least : width.least < exponent) (greatest : exponent ≤ width.greatest)
    (low : (4 * 2 ^ (width.bits - 1) - 1) * 2 ^ (exponent - 1) ≤ 2 * (num / den : ℚ))
    (high : (num / den : ℚ) < 2 ^ (exponent + width.bits - 1)) :
    width.nearest negative num den = .finite negative (2 ^ (width.bits - 1)) exponent := by
  have unitPos : (0 : ℚ) < 2 ^ (exponent - 1) := by positivity
  have one : (1 : ℚ) ≤ 2 ^ (width.bits - 1) := one_le_pow₀ one_le_two
  have double : 2 * 2 ^ (width.bits - 1) = 2 ^ width.bits := by
    rw [← pow_succ', Nat.sub_add_cancel bits]
  have doubled : (2 : ℚ) * 2 ^ (width.bits - 1) = 2 ^ width.bits := by exact_mod_cast double
  have power : (2 : ℚ) ^ (exponent + width.bits - 1) = 2 ^ (exponent - 1) * 2 ^ width.bits := by
    rw [show exponent + width.bits - 1 = exponent - 1 + width.bits by ring, zpow_add₀ two_ne_zero,
      zpow_natCast]
  have numPos : 0 < num := by
    rcases Nat.eq_zero_or_pos num with rfl | some
    · simp only [Nat.cast_zero, zero_div, mul_zero] at low
      nlinarith
    · exact some
  have reached : (2 : ℚ) ^ (exponent - 1 + width.bits - 1) ≤ num / den := by
    have half : (2 : ℚ) ^ (exponent - 1 + width.bits - 1) =
        2 ^ (exponent - 1) * 2 ^ (width.bits - 1) := by
      rw [← zpow_natCast, ← zpow_add₀ two_ne_zero, Nat.cast_sub bits, Nat.cast_one, add_sub_assoc]
    rw [half]
    nlinarith
  have found : width.exponentOf num den = exponent - 1 :=
    exponentOf_eq denPos bits (by omega) reached
      (by rw [show exponent - 1 + (width.bits : ℤ) = exponent + width.bits - 1 by ring]; exact high)
  have rounded : roundQuotient (scaled num den (exponent - 1)).1 (scaled num den (exponent - 1)).2 =
      2 ^ width.bits := by
    refine roundQuotient_scaled denPos ?_ ?_ (.inl ?_)
    · push_cast
      nlinarith
    · push_cast
      nlinarith
    · rw [← double]
      omega
  simp [Width.nearest, numPos.ne', found, rounded, not_lt_of_ge greatest]

theorem cast_low (positive : 0 < significand) :
    ((intervalOf width significand exponent).low : ℚ) = 4 * significand -
      if significand = 2 ^ (width.bits - 1) ∧ width.least < exponent then 1 else 2 := by
  have enough : 2 ≤ 4 * significand := by omega
  simp only [intervalOf, Nat.pow_eq]
  split
  · rw [Nat.cast_sub (by omega)]
    simp
  · rw [Nat.cast_sub enough]
    simp

theorem cast_high (width : Width) (significand : ℕ) (exponent : ℤ) :
    ((intervalOf width significand exponent).high : ℚ) = 4 * significand + 2 := by
  simp [intervalOf]

/-- A fraction in the interval of a number is rounded to this number. -/
theorem nearest_of_reads (negative : Bool) (has : width.Has significand exponent) (denPos : 0 < den)
    (reads : (intervalOf width significand exponent).Reads (2 ^ (exponent - 2)) (num / den)) :
    width.nearest negative num den = .finite negative significand exponent := by
  have bits := bits_pos has.positive has.small
  have unitPos : (0 : ℚ) < 2 ^ (exponent - 2) := by positivity
  have full : (2 : ℚ) ^ exponent = 4 * 2 ^ (exponent - 2) := by
    rw [show exponent = exponent - 2 + 2 by ring, zpow_add₀ two_ne_zero, sub_add_cancel]
    ring
  have half : (2 : ℚ) ^ (exponent - 1) = 2 * 2 ^ (exponent - 2) := by
    rw [show exponent - 1 = exponent - 2 + 1 by ring, zpow_add₀ two_ne_zero]
    ring
  have power : (2 : ℚ) ^ (exponent + width.bits - 1) = 2 ^ exponent * 2 ^ (width.bits - 1) := by
    rw [← zpow_natCast, ← zpow_add₀ two_ne_zero, Nat.cast_sub bits, Nat.cast_one, add_sub_assoc]
  obtain ⟨low, high, inside⟩ := reads
  rw [cast_low has.positive] at low inside
  have even : (intervalOf width significand exponent).closed = true ↔ significand % 2 = 0 := by
    simp [intervalOf]
  rw [cast_high] at high inside
  rw [even] at inside
  by_cases carry : width.least < exponent ∧ (num / den : ℚ) < 2 ^ (exponent + width.bits - 1)
  · -- below the power of two, where the numbers stand closer together
    have atPower : significand = 2 ^ (width.bits - 1) := by
      refine le_antisymm (le_of_not_gt fun above => ?_) (has.normal carry.1.ne')
      have above' : (2 : ℚ) ^ (width.bits - 1) + 1 ≤ significand := by exact_mod_cast above
      rw [if_neg fun both => above.ne' both.1] at low
      nlinarith [carry.2]
    rw [if_pos ⟨atPower, carry.1⟩] at low
    rw [atPower] at low ⊢
    refine nearest_of_carry negative denPos bits carry.1 has.greatest ?_ carry.2
    push_cast at low
    rw [half]
    linarith
  · have reached : exponent = width.least ∨ 2 ^ (exponent + width.bits - 1) ≤ (num / den : ℚ) := by
      rcases has.least.eq_or_lt with least | above
      · exact .inl least.symm
      · exact .inr (le_of_not_gt fun below => carry ⟨above, below⟩)
    have high' : 2 * (num / den : ℚ) ≤ (2 * significand + 1) * 2 ^ exponent := by
      rw [full]
      linarith
    by_cases atPower : significand = 2 ^ (width.bits - 1) ∧ width.least < exponent
    · have far := reached.resolve_left atPower.2.ne'
      have near : (2 * significand - 1) * 2 ^ exponent < 2 * (num / den : ℚ) := by
        rw [atPower.1]
        push_cast
        rw [power] at far
        linarith
      refine nearest_of_near negative denPos has.positive has.small has.least has.greatest reached
        near.le high' (inside.imp_right fun both => ⟨near, ?_⟩)
      rw [full]
      linarith [both.2]
    · rw [if_neg atPower] at low inside
      refine nearest_of_near negative denPos has.positive has.small has.least has.greatest reached
        ?_ high' (inside.imp_right fun both => ?_)
      · rw [full]
        linarith
      · rw [full]
        exact ⟨by linarith [both.1], by linarith [both.2]⟩

end Nearest

/-! ## Decimals -/

/-- The value of a decimal. -/
def decimalValue (digits : ℕ) (exponent : ℤ) : ℚ := digits * 10 ^ exponent

/-- The power of ten is estimated by three powers of two. -/
theorem two_pow_mul_three_le (n : ℕ) : (2 : ℚ) ^ (3 * n) ≤ 10 ^ n := by
  rw [pow_mul]
  exact pow_le_pow_left₀ (by norm_num) (by norm_num) n

theorem decimalValue_ofNat (digits n : ℕ) :
    decimalValue digits n = (digits * Nat.pow 10 n : ℕ) / (1 : ℕ) := by
  simp [decimalValue]

theorem decimalValue_neg (digits n : ℕ) :
    decimalValue digits (-(n : ℤ)) = digits / (Nat.pow 10 n : ℕ) := by
  simp [decimalValue, div_eq_mul_inv]

/-- A lower bound for a decimal whose exponent is not negative. -/
theorem two_pow_le_decimalValue {digits : ℕ} (present : digits ≠ 0) (n : ℕ) :
    (2 : ℚ) ^ ((digits.log2 + 3 * n : ℕ) : ℤ) ≤ decimalValue digits n := by
  have low : (2 : ℚ) ^ digits.log2 ≤ digits := by exact_mod_cast Nat.log2_self_le present
  rw [zpow_natCast, pow_add, decimalValue, zpow_natCast]
  exact mul_le_mul low (two_pow_mul_three_le n) (by positivity) (by positivity)

/-- An upper bound for a decimal whose exponent is not positive. -/
theorem decimalValue_lt_two_pow (digits n : ℕ) :
    decimalValue digits (-(n : ℤ)) < 2 ^ ((digits.log2 + 1 : ℕ) - (3 * n : ℕ) : ℤ) := by
  have high : (digits : ℚ) < 2 ^ (digits.log2 + 1) := by exact_mod_cast Nat.lt_log2_self
  rw [zpow_sub₀ two_ne_zero, zpow_natCast, zpow_natCast, decimalValue, zpow_neg, zpow_natCast,
    ← div_eq_mul_inv]
  exact div_lt_div₀ high (two_pow_mul_three_le n) (by positivity) (by positivity)

/-- The size of what is read as a number. -/
theorem bounds_of_reads {significand : ℕ} {exponent : ℤ} (has : width.Has significand exponent)
    {value : ℚ} (reads : (intervalOf width significand exponent).Reads (2 ^ (exponent - 2)) value) :
    2 ^ (exponent - 1) ≤ value ∧ value < 2 ^ (exponent + width.bits) := by
  have unitPos : (0 : ℚ) < 2 ^ (exponent - 2) := by positivity
  have one : (1 : ℚ) ≤ significand := by exact_mod_cast has.positive
  have most : (significand : ℚ) + 1 ≤ 2 ^ width.bits := by exact_mod_cast has.small
  constructor
  · have low := reads.low
    have two : (2 : ℚ) ≤ (intervalOf width significand exponent).low := by
      rw [cast_low has.positive]
      split <;> linarith
    rw [show exponent - 1 = exponent - 2 + 1 by ring, zpow_add₀ two_ne_zero, zpow_one]
    nlinarith
  · have high := reads.high
    rw [cast_high] at high
    rw [show exponent + width.bits = exponent - 2 + (2 + width.bits) by ring,
      zpow_add₀ two_ne_zero, zpow_add₀ two_ne_zero, zpow_natCast]
    norm_num
    nlinarith

/-- A decimal in the interval of a number is rounded to this number. Its exponent is never so large or
so small that the exponent alone decides. -/
theorem ofDecimal_of_reads (negative : Bool) {significand : ℕ} {exponent : ℤ}
    (has : width.Has significand exponent) {digits : ℕ} {power : ℤ}
    (reads : (intervalOf width significand exponent).Reads (2 ^ (exponent - 2))
      (decimalValue digits power)) :
    width.ofDecimal negative digits power = .finite negative significand exponent := by
  obtain ⟨above, below⟩ := bounds_of_reads has reads
  have least := has.least
  have greatest := has.greatest
  have present : digits ≠ 0 := by
    rintro rfl
    have positive : (0 : ℚ) < 2 ^ (exponent - 1) := by positivity
    simp only [decimalValue, Nat.cast_zero, zero_mul] at above
    exact absurd positive (not_lt_of_ge above)
  rw [Width.ofDecimal, if_neg present]
  split
  · rename_i up
    obtain ⟨n, rfl⟩ := Int.eq_ofNat_of_zero_le up
    have small := (zpow_lt_zpow_iff_right₀ one_lt_two).mp
      (lt_of_le_of_lt (two_pow_le_decimalValue present n) below)
    rw [decimalValue_ofNat] at reads
    rw [if_neg (by push_cast at small; omega)]
    exact nearest_of_reads negative has Nat.one_pos reads
  · rename_i down
    obtain ⟨n, same⟩ := Int.eq_ofNat_of_zero_le (show 0 ≤ -power by omega)
    obtain rfl : power = -(n : ℤ) := by omega
    have large := (zpow_lt_zpow_iff_right₀ one_lt_two).mp
      (lt_of_le_of_lt above (decimalValue_lt_two_pow digits n))
    rw [decimalValue_neg] at reads
    rw [if_neg (by push_cast at large; omega), neg_neg, Int.toNat_natCast]
    exact nearest_of_reads negative has (Nat.pow_pos (by omega)) reads

end XmlTemplate.Decimal
