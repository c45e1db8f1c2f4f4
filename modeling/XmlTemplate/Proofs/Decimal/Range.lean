import XmlTemplate.Proofs.Decimal.ReadBack

/-!
# The range of a width

Each width has a limit, halfway between its greatest number and the next power of two. A fraction
below it is rounded to a number of the width, and any other fraction to the infinite number: there
the even neighbour is the power of two, which the width does not have.

Results:
1. `roundQuotient_scaled_near`: rounding errs by at most half of the last bit.
2. `nearest_spec`: which fractions are rounded to numbers, and which are infinite.
3. `ofDecimal_spec`: the same for decimals, however large or small their exponents are.
-/

namespace XmlTemplate.Decimal

/-- Decimals from here on are infinite. -/
def Width.limit (width : Width) : ℚ := (2 ^ width.bits - 1 / 2) * 2 ^ width.greatest

/-- A width has bits and a range of exponents. -/
structure Width.Proper (width : Width) : Prop where
  bits : 0 < width.bits
  ordered : width.least ≤ width.greatest

theorem proper_double : double.Proper := ⟨by decide, by decide⟩

variable {width : Width} {num den : ℕ}

theorem Width.Proper.two_le (proper : width.Proper) : (2 : ℚ) ≤ 2 ^ width.bits := by
  have power : (2 : ℚ) ^ 1 ≤ 2 ^ width.bits := pow_le_pow_right₀ one_le_two proper.bits
  rwa [pow_one] at power

/-- The limit lies in the greatest binade. -/
theorem Width.Proper.power_le_limit (proper : width.Proper) :
    (2 : ℚ) ^ (width.greatest + width.bits - 1) ≤ width.limit := by
  have enough := proper.two_le
  rw [limit, show width.greatest + width.bits - 1 = (width.bits : ℤ) + width.greatest - 1 by ring,
    zpow_sub_one₀ two_ne_zero, zpow_add₀ two_ne_zero, zpow_natCast, mul_right_comm]
  exact mul_le_mul_of_nonneg_right (by linarith) (by positivity)

theorem Width.limit_lt (width : Width) : width.limit < 2 ^ (width.greatest + width.bits) := by
  have positive : (0 : ℚ) < 2 ^ width.greatest := by positivity
  rw [limit, add_comm, zpow_add₀ two_ne_zero, zpow_natCast]
  exact mul_lt_mul_of_pos_right (by linarith) positive

/-! ## Fractions -/

theorem roundQuotient_scaled_near (num : ℕ) (denPos : 0 < den) (exponent : ℤ) :
    (2 * (roundQuotient (scaled num den exponent).1 (scaled num den exponent).2 : ℚ) - 1) *
        2 ^ exponent ≤ 2 * (num / den) ∧
      2 * (num / den : ℚ) ≤
        (2 * (roundQuotient (scaled num den exponent).1 (scaled num den exponent).2 : ℚ) + 1) *
          2 ^ exponent := by
  have positive : (0 : ℚ) < 2 ^ exponent := by positivity
  have ratio := div_eq_scaled num den exponent
  have pos := scaled_pos num denPos exponent
  obtain ⟨low, high⟩ := two_mul_sub_roundQuotient_le (scaled num den exponent).1 pos
  generalize (scaled num den exponent).1 = p at ratio low high ⊢
  generalize (scaled num den exponent).2 = q at ratio pos low high ⊢
  have pos' : (0 : ℚ) < q := by exact_mod_cast pos
  have low' : (2 * p : ℚ) ≤ 2 * (roundQuotient p q * q) + q := by exact_mod_cast low
  have high' : (2 * (roundQuotient p q * q) : ℚ) ≤ 2 * p + q := by exact_mod_cast high
  rw [ratio, ← mul_assoc]
  constructor
  · refine mul_le_mul_of_nonneg_right ?_ positive.le
    rw [mul_div_assoc', le_div_iff₀ pos']
    linarith
  · refine mul_le_mul_of_nonneg_right ?_ positive.le
    rw [mul_div_assoc', div_le_iff₀ pos']
    linarith

section Whole

variable {value : ℚ} {exponent : ℤ} {r m : ℕ}

/-- What is rounded below a whole number of units is at most this number. -/
theorem rounded_le (low : (2 * r - 1) * 2 ^ exponent ≤ 2 * value) (below : value < m * 2 ^ exponent) :
    r ≤ m := by
  have unitPos : (0 : ℚ) < 2 ^ exponent := by positivity
  have most : (2 * r - 1 : ℚ) < 2 * m := by
    refine lt_of_mul_lt_mul_right ?_ unitPos.le
    linarith
  have most' : (2 * r : ℚ) < 2 * m + 1 := by linarith
  have : 2 * r < 2 * m + 1 := by exact_mod_cast most'
  omega

/-- What is rounded from a whole number of units on is at least this number. -/
theorem le_rounded (high : 2 * value ≤ (2 * r + 1) * 2 ^ exponent) (above : m * 2 ^ exponent ≤ value) :
    m ≤ r := by
  have unitPos : (0 : ℚ) < 2 ^ exponent := by positivity
  have few : (2 * m : ℚ) ≤ 2 * r + 1 := by
    refine le_of_mul_le_mul_right ?_ unitPos
    linarith
  have : 2 * m ≤ 2 * r + 1 := by exact_mod_cast few
  omega

end Whole

/-- What a positive fraction is rounded to, before its exponent is compared with the greatest one. -/
structure Rounded (width : Width) (value : ℚ) (significand : ℕ) (exponent : ℤ) : Prop where
  near : (2 * significand - 1) * 2 ^ exponent ≤ 2 * value ∧
    2 * value ≤ (2 * significand + 1) * 2 ^ exponent
  small : significand ≤ 2 ^ width.bits
  least : width.least ≤ exponent
  reached : exponent ≠ width.least → 2 ^ (exponent + width.bits - 1) ≤ value
  normal : exponent ≠ width.least → 2 ^ (width.bits - 1) ≤ significand
  /-- Halfway to the next power of two, the even significand is that of the power. -/
  carries : (2 * 2 ^ width.bits - 1) * 2 ^ exponent ≤ 2 * value → significand = 2 ^ width.bits

theorem rounded (proper : width.Proper) (numPos : 0 < num) (denPos : 0 < den) :
    Rounded width (num / den)
      (roundQuotient (scaled num den (width.exponentOf num den)).1
        (scaled num den (width.exponentOf num den)).2) (width.exponentOf num den) := by
  obtain ⟨top, reached, below, same⟩ := exponentOf_spec width numPos denPos
  have bits := proper.bits
  have near := roundQuotient_scaled_near num denPos (width.exponentOf num den)
  have rounds (r : ℕ) := @roundQuotient_scaled num den denPos (width.exponentOf num den) r
  generalize width.exponentOf num den = exponent at near rounds same ⊢
  generalize roundQuotient _ _ = r at near rounds ⊢
  have unitPos : (0 : ℚ) < 2 ^ exponent := by positivity
  have far (other : exponent ≠ width.least) :
      (2 : ℚ) ^ (exponent + width.bits - 1) ≤ num / den :=
    (zpow_le_zpow_right₀ one_le_two (by omega)).trans reached
  have small : r ≤ 2 ^ width.bits := by
    refine rounded_le near.1 (below.trans_le ?_)
    rw [Nat.cast_pow, Nat.cast_ofNat, ← zpow_natCast, ← zpow_add₀ two_ne_zero]
    exact zpow_le_zpow_right₀ one_le_two (by omega)
  have normal (other : exponent ≠ width.least) : 2 ^ (width.bits - 1) ≤ r := by
    refine le_rounded near.2 (le_trans ?_ (far other))
    rw [Nat.cast_pow, Nat.cast_ofNat, ← zpow_natCast, ← zpow_add₀ two_ne_zero]
    exact zpow_le_zpow_right₀ one_le_two (by omega)
  -- the power of two is even, so it is what halfway to it is rounded to
  refine ⟨near, small, by omega, far, normal, fun above => rounds _ ?_ ?_ (.inl ?_)⟩
  · push_cast
    exact above
  · have small' : (r : ℚ) ≤ 2 ^ width.bits := by exact_mod_cast small
    push_cast
    exact near.2.trans (mul_le_mul_of_nonneg_right (by linarith) unitPos.le)
  · rw [← Nat.sub_add_cancel bits, pow_succ, Nat.mul_mod_left]

/-- A positive value is at the limit of a width or above, and stands for the infinite number, or it is
below the limit and stands for a number of the width. -/
def Settles (width : Width) (negative : Bool) (value : ℚ) (x : Binary) : Prop :=
  width.limit ≤ value ∧ x = .infinite negative ∨ value < width.limit ∧ width.Holds x

section Limit

variable {value : ℚ} {significand : ℕ} {exponent : ℤ}

theorem Rounded.limit_le (found : Rounded width value significand exponent) (proper : width.Proper)
    (above : width.greatest < exponent ∨
      significand = 2 ^ width.bits ∧ width.greatest ≤ exponent) : width.limit ≤ value := by
  have ordered := proper.ordered
  rcases above with far | ⟨rfl, carried⟩
  · -- a significand with all its bits
    refine width.limit_lt.le.trans (le_trans ?_ (found.reached (by omega)))
    exact zpow_le_zpow_right₀ one_le_two (by omega)
  · have low := found.near.1
    have power : (2 : ℚ) ^ width.greatest ≤ 2 ^ exponent := zpow_le_zpow_right₀ one_le_two carried
    have enough := proper.two_le
    push_cast at low
    refine (mul_le_mul_of_nonneg_left power (by linarith)).trans ?_
    linarith

theorem Rounded.lt_limit (found : Rounded width value significand exponent) (proper : width.Proper)
    (below : exponent < width.greatest ∨
      significand < 2 ^ width.bits ∧ exponent ≤ width.greatest) : value < width.limit := by
  have enough := proper.two_le
  rcases below with less | ⟨small, most⟩
  · have small : (significand : ℚ) ≤ 2 ^ width.bits := by exact_mod_cast found.small
    have power : (2 : ℚ) ^ (exponent + 1) ≤ 2 ^ width.greatest :=
      zpow_le_zpow_right₀ one_le_two less
    have unitPos : (0 : ℚ) < 2 ^ exponent := by positivity
    rw [zpow_add_one₀ two_ne_zero] at power
    calc value ≤ (significand + 1 / 2) * 2 ^ exponent := by linarith [found.near.2]
      _ < (2 ^ width.bits - 1 / 2) * (2 ^ exponent * 2) := by nlinarith
      _ ≤ width.limit := mul_le_mul_of_nonneg_left power (by linarith)
  · -- at the limit itself the significand is that of the power
    by_contra reached
    have power : (2 : ℚ) ^ exponent ≤ 2 ^ width.greatest := zpow_le_zpow_right₀ one_le_two most
    have limit := mul_le_mul_of_nonneg_left power (show 0 ≤ (2 : ℚ) ^ width.bits - 1 / 2 by linarith)
    have above : width.limit ≤ value := le_of_not_gt reached
    unfold Width.limit at above
    exact small.ne (found.carries (by linarith))

end Limit

/-- A fraction from the limit on is infinite, and any other is rounded to a number of the width. -/
theorem nearest_spec (proper : width.Proper) (negative : Bool) (num : ℕ) (denPos : 0 < den) :
    Settles width negative (num / den) (width.nearest negative num den) := by
  by_cases zero : num = 0
  · subst zero
    have positive : (0 : ℚ) < width.limit :=
      lt_of_lt_of_le (by positivity) proper.power_le_limit
    exact .inr ⟨by simpa using positive, by simp [Width.nearest, Width.Holds]⟩
  · have found := rounded proper (Nat.pos_of_ne_zero zero) denPos
    have least := found.least
    simp only [Width.nearest, if_neg zero, Nat.pow_eq]
    generalize width.exponentOf num den = exponent at found least ⊢
    generalize roundQuotient _ _ = r at found ⊢
    by_cases carries : r = 2 ^ width.bits
    · simp only [if_pos carries]
      split
      · exact .inl ⟨found.limit_le proper (.inr ⟨carries, by omega⟩), rfl⟩
      · have positive : 0 < 2 ^ (width.bits - 1) := Nat.pow_pos two_pos
        refine .inr ⟨found.lt_limit proper (.inl (by omega)), ?_⟩
        rw [Width.Holds, if_neg positive.ne']
        exact ⟨positive, Nat.pow_lt_pow_right one_lt_two (Nat.sub_lt proper.bits one_pos),
          by omega, by omega, fun _ => le_rfl⟩
    · simp only [if_neg carries]
      have small : r < 2 ^ width.bits := lt_of_le_of_ne found.small carries
      split
      · next far => exact .inl ⟨found.limit_le proper (.inl far), rfl⟩
      · refine .inr ⟨found.lt_limit proper (.inr ⟨small, by omega⟩), ?_⟩
        by_cases nothing : r = 0
        · rw [Width.Holds, if_pos nothing]
          by_contra other
          have bits := found.normal other
          rw [nothing] at bits
          exact absurd (Nat.pow_pos two_pos) bits.not_gt
        · rw [Width.Holds, if_neg nothing]
          exact ⟨Nat.pos_of_ne_zero nothing, small, least, by omega, found.normal⟩

/-! ## Decimals -/

/-- A decimal from the limit on is infinite, and any other is rounded to a number of the width. -/
theorem ofDecimal_spec (proper : width.Proper) (negative : Bool) (digits : ℕ) (power : ℤ) :
    Settles width negative (decimalValue digits power) (width.ofDecimal negative digits power) := by
  have zero : width.Holds (.finite negative 0 width.least) := by simp [Width.Holds]
  have positive : (0 : ℚ) < width.limit := lt_of_lt_of_le (by positivity) proper.power_le_limit
  unfold Width.ofDecimal
  split
  · next nothing =>
    rw [nothing, decimalValue, Nat.cast_zero, zero_mul]
    exact .inr ⟨positive, zero⟩
  next present =>
  split
  · next up =>
    obtain ⟨n, rfl⟩ := Int.eq_ofNat_of_zero_le up
    split
    · next large =>
      have size := two_pow_le_decimalValue present n
      refine .inl ⟨width.limit_lt.le.trans (le_trans ?_ size), rfl⟩
      exact zpow_le_zpow_right₀ one_le_two (by push_cast; exact large)
    · rw [decimalValue_ofNat]
      exact nearest_spec proper negative _ Nat.one_pos
  · next down =>
    obtain ⟨n, same⟩ := Int.eq_ofNat_of_zero_le (show 0 ≤ -power by omega)
    obtain rfl : power = -(n : ℤ) := by omega
    split
    · next small =>
      have size := decimalValue_lt_two_pow digits n
      have ordered := proper.ordered
      have bits := proper.bits
      refine .inr ⟨size.trans_le (le_trans ?_ proper.power_le_limit), zero⟩
      exact zpow_le_zpow_right₀ one_le_two (by push_cast; omega)
    · rw [decimalValue_neg, neg_neg, Int.toNat_natCast]
      exact nearest_spec proper negative _ (Nat.pow_pos (by omega))

end XmlTemplate.Decimal
