import XmlTemplate.Proofs.Decimal.Rounding

/-!
# Shortest decimals read back

The search for a decimal ends on a grid that is finer than the numbers stand apart, so it finds one,
and what it finds lies in the interval of the number.

Results:
1. `reads_of_contains`: what a grid finds in an interval has a value in this interval.
2. `candidate?_isSome`: a fine grid finds something.
3. `search_reads`, `shortest_reads`: the shortest decimal lies in the interval of its number.
4. `search_exponent`: it stands on the same grid, whichever of two equally near decimals is taken.
-/

namespace XmlTemplate.Decimal

variable {interval : Interval} {exponent grid : ℤ} {tie : Tie}

/-! ## Grids -/

/-- The size of the units in which an interval and a grid are compared. -/
def gridUnit (exponent grid : ℤ) : ℚ := 2 ^ (-exponent).toNat * 10 ^ (-grid).toNat

theorem gridUnit_pos (exponent grid : ℤ) : 0 < gridUnit exponent grid := by
  unfold gridUnit
  positivity

theorem cast_onGrid (interval : Interval) (exponent grid : ℤ) :
    ((onGrid interval exponent grid).1.low : ℚ) =
        interval.low * 2 ^ exponent * gridUnit exponent grid ∧
      ((onGrid interval exponent grid).1.value : ℚ) =
        interval.value * 2 ^ exponent * gridUnit exponent grid ∧
      ((onGrid interval exponent grid).1.high : ℚ) =
        interval.high * 2 ^ exponent * gridUnit exponent grid ∧
      ((onGrid interval exponent grid).2 : ℚ) = 10 ^ grid * gridUnit exponent grid := by
  have two := zpow_mul_pow_neg (two_ne_zero (α := ℚ)) exponent
  have ten := zpow_mul_pow_neg (show (10 : ℚ) ≠ 0 by norm_num) grid
  have factor (n : ℕ) : ((n * (Nat.pow 2 exponent.toNat * Nat.pow 10 (-grid).toNat) : ℕ) : ℚ) =
      n * 2 ^ exponent * gridUnit exponent grid := by
    simp only [Nat.pow_eq, Nat.cast_mul, Nat.cast_pow, Nat.cast_ofNat, ← two, gridUnit]
    ring
  refine ⟨factor _, factor _, factor _, ?_⟩
  simp only [onGrid, Nat.pow_eq, Nat.cast_mul, Nat.cast_pow, Nat.cast_ofNat, ← ten, gridUnit]
  ring

/-- What a grid finds in an interval has a value in this interval. -/
theorem reads_of_contains {n : ℕ}
    (found : (onGrid interval exponent grid).1.contains (n * (onGrid interval exponent grid).2) = true) :
    interval.Reads (2 ^ exponent) (decimalValue n grid) := by
  obtain ⟨low, -, high, step⟩ := cast_onGrid interval exponent grid
  have unitPos := gridUnit_pos exponent grid
  have point : ((n * (onGrid interval exponent grid).2 : ℕ) : ℚ) =
      decimalValue n grid * gridUnit exponent grid := by
    rw [Nat.cast_mul, step, decimalValue, mul_assoc]
  have closed : (onGrid interval exponent grid).1.closed = interval.closed := rfl
  unfold Interval.contains at found
  rw [closed] at found
  split at found
  · rename_i ends
    rw [Bool.and_eq_true, decide_eq_true_eq, decide_eq_true_eq, ← Nat.cast_le (α := ℚ),
      ← Nat.cast_le (α := ℚ), point, low, high, mul_le_mul_iff_left₀ unitPos,
      mul_le_mul_iff_left₀ unitPos] at found
    exact ⟨found.1, found.2, .inl ends⟩
  · rw [Bool.and_eq_true, decide_eq_true_eq, decide_eq_true_eq, ← Nat.cast_lt (α := ℚ),
      ← Nat.cast_lt (α := ℚ), point, low, high, mul_lt_mul_iff_left₀ unitPos,
      mul_lt_mul_iff_left₀ unitPos] at found
    exact ⟨found.1.le, found.2.le, .inr found⟩

/-- Whether a grid finds something does not depend on what is taken of two equally near decimals. -/
theorem isSome_candidate? (interval : Interval) (tie : Tie) (step : ℕ) :
    (interval.candidate? tie step).isSome =
      (interval.contains (interval.value / step * step) ||
        interval.contains ((interval.value / step + 1) * step)) := by
  unfold Interval.candidate?
  simp only
  cases interval.contains (interval.value / step * step) with
  | false => cases interval.contains ((interval.value / step + 1) * step) <;> rfl
  | true =>
    cases interval.contains ((interval.value / step + 1) * step) with
    | false => rfl
    | true => split_ifs <;> rfl

/-- A grid finds something if its step fits between a number and the end of its interval. -/
theorem candidate?_isSome {step : ℕ} (pos : 0 < step) (low : interval.low ≤ interval.value)
    (fine : interval.value + step < interval.high) : (interval.candidate? tie step).isSome = true := by
  have after : interval.value < (interval.value / step + 1) * step := by
    rw [Nat.mul_comm]
    exact Nat.lt_mul_div_succ interval.value pos
  have near : (interval.value / step + 1) * step ≤ interval.value + step := by
    rw [Nat.add_mul, Nat.one_mul]
    exact Nat.add_le_add_right (Nat.div_mul_le_self ..) step
  have above : interval.contains ((interval.value / step + 1) * step) = true := by
    unfold Interval.contains
    split <;> rw [Bool.and_eq_true, decide_eq_true_eq, decide_eq_true_eq] <;> omega
  rw [isSome_candidate?, above, Bool.or_true]

/-! ## The search -/

/-- The search finds a decimal of the interval if the last grid that it tries is fine enough. -/
theorem search_reads {tries : ℕ} (low : interval.low ≤ interval.value) (some : 0 < tries)
    (fine : interval.value * 2 ^ exponent + 10 ^ (grid - (tries - 1 : ℕ)) <
      (interval.high * 2 ^ exponent : ℚ)) :
    interval.Reads (2 ^ exponent)
      (decimalValue (search interval exponent tie tries grid).digits
        (search interval exponent tie tries grid).exponent) := by
  induction tries generalizing grid with
  | zero => exact absurd some (lt_irrefl _)
  | succ tries ih =>
    rw [search]
    split
    · rename_i digits chosen
      exact reads_of_contains (Interval.candidate?_hits chosen)
    · rename_i missed
      rcases Nat.eq_zero_or_pos tries with rfl | more
      · -- the last grid finds something
        have found : ((onGrid interval exponent grid).1.candidate? tie
            (onGrid interval exponent grid).2).isSome = true := by
          obtain ⟨lowCast, value, high, step⟩ := cast_onGrid interval exponent grid
          have unitPos := gridUnit_pos exponent grid
          refine candidate?_isSome ?_ (Nat.mul_le_mul_right _ low) ?_
          · have stepPos : (0 : ℚ) < (onGrid interval exponent grid).2 := by
              rw [step]
              positivity
            exact_mod_cast stepPos
          · rw [← Nat.cast_lt (α := ℚ), Nat.cast_add, value, high, step, ← add_mul,
              mul_lt_mul_iff_left₀ unitPos]
            simpa using fine
        rw [missed] at found
        cases found
      · refine ih more ?_
        rw [show grid - 1 - ((tries - 1 : ℕ) : ℤ) = grid - ((tries + 1 - 1 : ℕ) : ℤ) by omega]
        exact fine

/-- The grid on which a decimal is found does not depend on what is taken of two equally near
decimals. -/
theorem search_exponent (interval : Interval) (exponent : ℤ) (tie other : Tie) (tries : ℕ) (grid : ℤ) :
    (search interval exponent tie tries grid).exponent =
      (search interval exponent other tries grid).exponent := by
  induction tries generalizing grid with
  | zero => rfl
  | succ tries ih =>
    have alike := (isSome_candidate? (onGrid interval exponent grid).1 tie
      (onGrid interval exponent grid).2).trans (isSome_candidate? _ other _).symm
    rw [search, search]
    cases one : (onGrid interval exponent grid).1.candidate? tie (onGrid interval exponent grid).2 with
    | none =>
      rw [one, Option.isSome_none, eq_comm, Option.isSome_eq_false_iff, Option.isNone_iff_eq_none]
        at alike
      rw [alike]
      exact ih (grid - 1)
    | some digits =>
      rw [one, Option.isSome_some, eq_comm, Option.isSome_iff_exists] at alike
      obtain ⟨others, found⟩ := alike
      rw [found]

/-! ## Numbers of 64 bits -/

/-- Powers of ten are smaller than powers of two with exponents in the ratio 31 to 103. -/
theorem ten_pow_le (n : ℕ) : ((10 : ℚ) ^ n) ^ 31 ≤ 2 ^ (103 * n) := by
  rw [← pow_mul, Nat.mul_comm n, pow_mul, pow_mul]
  exact pow_le_pow_left₀ (by norm_num) (by norm_num) n

/-- Powers of ten are greater than powers of two with exponents in the ratio 28 to 93. -/
theorem two_pow_le (n : ℕ) : (2 : ℚ) ^ (93 * n) ≤ (10 ^ n) ^ 28 := by
  rw [← pow_mul, Nat.mul_comm n, pow_mul, pow_mul]
  exact pow_le_pow_left₀ (by norm_num) (by norm_num) n

/-- The last grid that is searched for a number of 64 bits is finer than the numbers stand apart. -/
theorem last_grid_fine {exponent last : ℤ} (least : -1074 ≤ exponent) (greatest : exponent ≤ 971)
    (bound : 100000 * (last + 19) ≤ (53 + exponent) * 30103) :
    (10 : ℚ) ^ last < 2 ^ (exponent - 1) := by
  rcases lt_or_ge 0 last with up | down
  · obtain ⟨n, rfl⟩ := Int.eq_ofNat_of_zero_le up.le
    obtain ⟨k, same⟩ := Int.eq_ofNat_of_zero_le (show 0 ≤ exponent - 1 by omega)
    rw [same, zpow_natCast, zpow_natCast]
    refine lt_of_pow_lt_pow_left₀ 31 (by positivity) (lt_of_le_of_lt (ten_pow_le n) ?_)
    rw [← pow_mul]
    exact pow_lt_pow_right₀ one_lt_two (by omega)
  · obtain ⟨n, same⟩ := Int.eq_ofNat_of_zero_le (show 0 ≤ -last by omega)
    obtain rfl : last = -(n : ℤ) := by omega
    have small : (2 : ℚ) ^ (1 - exponent) < 10 ^ n := by
      rcases lt_or_ge 1 exponent with up | down
      · exact lt_of_lt_of_le (zpow_lt_one_of_neg₀ one_lt_two (by omega)) (one_le_pow₀ (by norm_num))
      · obtain ⟨k, same⟩ := Int.eq_ofNat_of_zero_le (show 0 ≤ 1 - exponent by omega)
        rw [same, zpow_natCast]
        refine lt_of_pow_lt_pow_left₀ 28 (by positivity) (lt_of_lt_of_le ?_ (two_pow_le n))
        rw [← pow_mul]
        exact pow_lt_pow_right₀ one_lt_two (by omega)
    rw [zpow_neg, zpow_natCast, ← neg_sub, zpow_neg]
    exact (inv_lt_inv₀ (by positivity) (by positivity)).mpr small

theorem low_le_value {width : Width} (significand : ℕ) (exponent : ℤ) :
    (intervalOf width significand exponent).low ≤ (intervalOf width significand exponent).value :=
  Nat.sub_le ..

/-- The shortest decimal of a number of 64 bits lies in the interval of the number. -/
theorem shortest_reads (tie : Tie) {significand : ℕ} (has : double.Has significand exponent) :
    (intervalOf double significand exponent).Reads (2 ^ (exponent - 2))
      (decimalValue (shortest double tie significand exponent).digits
        (shortest double tie significand exponent).exponent) := by
  have bits : significand.log2 + 1 ≤ 53 := (Nat.log2_lt has.positive.ne').mpr has.small
  have least : -1074 ≤ exponent := has.least
  have greatest : exponent ≤ 971 := has.greatest
  have fine : (10 : ℚ) ^ (topGrid significand exponent - (gridCount - 1 : ℕ)) < 2 ^ (exponent - 1) := by
    refine last_grid_fine least greatest ?_
    unfold topGrid gridCount
    omega
  refine search_reads (low_le_value significand exponent) (by decide) ?_
  have double : (2 : ℚ) ^ (exponent - 1) = 2 * 2 ^ (exponent - 2) := by
    rw [show exponent - 1 = exponent - 2 + 1 by ring, zpow_add₀ two_ne_zero]
    ring
  rw [double] at fine
  simp only [intervalOf]
  push_cast
  linarith

end XmlTemplate.Decimal
