import XmlTemplate.Decimal.Binary

/-!
# Shortest decimals

A finite number is written with the fewest decimal digits that read back as the same number, and of
the decimals with so many digits with the nearest one. The decimals that read back fill an interval
around the number; its ends belong to it when the significand is even.

Results:
1. `Interval.candidate?_hits`: what is chosen on a grid reads back.
-/

namespace XmlTemplate.Decimal

/-- Which of two equally near decimals is written. -/
inductive Tie where
  /-- The one whose last digit is even. -/
  | toEven
  /-- The one farther from zero. -/
  | away
  deriving DecidableEq, Repr

/-- A decimal number: `digits` times ten to the power `exponent`. -/
structure Number where
  digits : Nat
  exponent : Int
  deriving DecidableEq, Repr

/-- A number and the interval of what reads back as that number, all in one unit. -/
structure Interval where
  low : Nat
  value : Nat
  high : Nat
  /-- The ends read back as well. -/
  closed : Bool
  deriving DecidableEq, Repr

namespace Interval

/-- A number of the unit reads back. -/
def contains (interval : Interval) (n : Nat) : Bool :=
  if interval.closed then decide (interval.low ≤ n) && decide (n ≤ interval.high)
  else decide (interval.low < n) && decide (n < interval.high)

/-- The multiple of `step` nearest to the value among its two neighbours that read back, as the
number of steps. -/
def candidate? (interval : Interval) (tie : Tie) (step : Nat) : Option Nat :=
  let below := interval.value / step
  let above := below + 1
  match interval.contains (below * step), interval.contains (above * step) with
  | true, true =>
    let middle := (2 * below + 1) * step
    if 2 * interval.value < middle then some below
    else if middle < 2 * interval.value then some above
    else if tie = .toEven ∧ below % 2 = 0 then some below
    else some above
  | true, false => some below
  | false, true => some above
  | false, false => none

theorem candidate?_hits {interval : Interval} {tie : Tie} {step n : Nat}
    (chosen : interval.candidate? tie step = some n) : interval.contains (n * step) = true := by
  unfold candidate? at chosen
  simp only at chosen
  split at chosen
  · rename_i below above
    split at chosen
    · cases chosen; exact below
    · split at chosen
      · cases chosen; exact above
      · split at chosen
        · cases chosen; exact below
        · cases chosen; exact above
  · rename_i below _; cases chosen; exact below
  · rename_i _ above; cases chosen; exact above
  · cases chosen

end Interval

/-- The number of a width with its interval, in units of a quarter of its last bit. Below a power of
two the numbers stand closer together. -/
def intervalOf (width : Width) (significand : Nat) (exponent : Int) : Interval :=
  let atPower := significand = Nat.pow 2 (width.bits - 1) ∧ width.least < exponent
  { low := 4 * significand - (if atPower then 1 else 2)
    value := 4 * significand
    high := 4 * significand + 2
    closed := significand % 2 == 0 }

/-- The interval in other units, with the size of ten to the power `grid` in the same units. The
units of the interval are two to the power `exponent`. -/
def onGrid (interval : Interval) (exponent grid : Int) : Interval × Nat :=
  let factor := Nat.pow 2 exponent.toNat * Nat.pow 10 (-grid).toNat
  ({ interval with
      low := interval.low * factor
      value := interval.value * factor
      high := interval.high * factor },
    Nat.pow 2 (-exponent).toNat * Nat.pow 10 grid.toNat)

/-- The first decimal that reads back on the grids from ten to the power `grid` downward. -/
def search (interval : Interval) (exponent : Int) (tie : Tie) : (tries : Nat) → (grid : Int) → Number
  | 0, grid => ⟨0, grid⟩
  | tries + 1, grid =>
    let scaled := onGrid interval exponent grid
    match scaled.1.candidate? tie scaled.2 with
    | some digits => ⟨digits, grid⟩
    | none => search interval exponent tie tries (grid - 1)

/-- A power of ten, given by its exponent, that is greater than a positive number. -/
def topGrid (significand : Nat) (exponent : Int) : Int :=
  ((significand.log2 + 1 : Nat) + exponent) * 30103 / 100000 + 2

/-- The number of grids that are searched: no number of the two widths needs more digits. -/
def gridCount : Nat := 22

/-- The shortest decimal of a positive number. -/
def shortest (width : Width) (tie : Tie) (significand : Nat) (exponent : Int) : Number :=
  search (intervalOf width significand exponent) (exponent - 2) tie gridCount
    (topGrid significand exponent)

example : shortest double .toEven 1 (-1074) = ⟨5, -324⟩ := by decide +kernel
example : shortest double .toEven 0x1999999999999A (-56) = ⟨1, -1⟩ := by decide +kernel
example : shortest single .away 0xCCCCCD (-27) = ⟨1, -1⟩ := by decide +kernel
example : shortest double .toEven 0x1FFFFFFFFFFFFF 971 = ⟨17976931348623157, 292⟩ := by
  decide +kernel

end XmlTemplate.Decimal
