/-!
# Binary floating-point numbers

A finite number is a sign, a significand and an exponent of two. A width limits the bits of the
significand and the range of the exponent; rounding to a width takes the nearest number and, of two
that are equally near, the one with the even significand.

Results:
1. `two_mul_sub_roundQuotient_le`: rounding a quotient errs by at most one half.
-/

namespace XmlTemplate.Decimal

/-- The numbers of a floating-point type: the bits of a significand and the least and the greatest
exponent of its last bit. -/
structure Width where
  bits : Nat
  least : Int
  greatest : Int
  deriving DecidableEq, Repr

/-- Numbers of 32 bits. -/
def single : Width := ⟨24, -149, 104⟩

/-- Numbers of 64 bits. -/
def double : Width := ⟨53, -1074, 971⟩

/-- A floating-point number: a finite one is `significand` times two to the power `exponent`. -/
inductive Binary where
  | nan
  | infinite (negative : Bool)
  | finite (negative : Bool) (significand : Nat) (exponent : Int)
  deriving DecidableEq, Repr

/-- The quotient rounded to the nearest whole number, a half to the even one. -/
def roundQuotient (num den : Nat) : Nat :=
  let quotient := num / den
  let twice := 2 * (num % den)
  if twice < den then quotient
  else if den < twice then quotient + 1
  else quotient + quotient % 2

theorem two_mul_sub_roundQuotient_le (num : Nat) {den : Nat} (pos : 0 < den) :
    2 * num ≤ 2 * (roundQuotient num den * den) + den ∧
      2 * (roundQuotient num den * den) ≤ 2 * num + den := by
  have split := Nat.div_add_mod num den
  have small := Nat.mod_lt num pos
  have comm : num / den * den = den * (num / den) := Nat.mul_comm _ _
  unfold roundQuotient
  simp only
  split
  · omega
  · split
    · rw [Nat.add_mul]; omega
    · rcases Nat.mod_two_eq_zero_or_one (num / den) with even | odd
      · rw [even]; simp only [Nat.add_zero]; omega
      · rw [odd, Nat.add_mul]; omega

/-- A fraction over two to the power `exponent`, as numerator and denominator. -/
def scaled (num den : Nat) (exponent : Int) : Nat × Nat :=
  if 0 ≤ exponent then (num, den * Nat.pow 2 exponent.toNat)
  else (num * Nat.pow 2 (-exponent).toNat, den)

namespace Width

/-- The exponent that the last bit of a positive fraction has, before rounding. -/
def exponentOf (width : Width) (num den : Nat) : Int :=
  let guess : Int := (num.log2 : Int) - (den.log2 : Int)
  let fraction := scaled num den guess
  let top := if fraction.2 ≤ fraction.1 then guess else guess - 1
  max width.least (top - (width.bits - 1 : Nat))

/-- The number nearest to a fraction. -/
def nearest (width : Width) (negative : Bool) (num den : Nat) : Binary :=
  if num = 0 then .finite negative 0 width.least
  else
    let exponent := width.exponentOf num den
    let fraction := scaled num den exponent
    let significand := roundQuotient fraction.1 fraction.2
    -- rounding up may need one bit more
    let carries := significand = Nat.pow 2 width.bits
    let exponent := if carries then exponent + 1 else exponent
    let significand := if carries then Nat.pow 2 (width.bits - 1) else significand
    if width.greatest < exponent then .infinite negative
    else .finite negative significand exponent

/-- The number nearest to a decimal number `digits` times ten to the power `exponent`. Decimals far
outside the range of the width are decided by the size of their exponents alone. -/
def ofDecimal (width : Width) (negative : Bool) (digits : Nat) (exponent : Int) : Binary :=
  if digits = 0 then .finite negative 0 width.least
  else if 0 ≤ exponent then
    if width.greatest + width.bits ≤ digits.log2 + 3 * exponent then .infinite negative
    else width.nearest negative (digits * Nat.pow 10 exponent.toNat) 1
  else
    if digits.log2 + 1 + 3 * exponent < width.least then .finite negative 0 width.least
    else width.nearest negative digits (Nat.pow 10 (-exponent).toNat)

end Width

namespace Binary

/-- The product of two finite numbers, rounded to a width. -/
def mul (width : Width) : Binary → Binary → Binary
  | .finite sign m e, .finite sign' m' e' =>
    let fraction := scaled (m * m') 1 (-(e + e'))
    width.nearest (sign != sign') fraction.1 fraction.2
  | _, _ => .nan

/-- The quotient of two finite numbers, rounded to a width. -/
def div (width : Width) : Binary → Binary → Binary
  | .finite sign m e, .finite sign' m' e' =>
    let fraction := scaled m m' (-(e - e'))
    width.nearest (sign != sign') fraction.1 fraction.2
  | _, _ => .nan

/-- The number with the other sign. -/
def neg : Binary → Binary
  | .nan => .nan
  | .infinite negative => .infinite (!negative)
  | .finite negative m e => .finite (!negative) m e

/-- The number is neither infinite nor undefined. -/
def isFinite : Binary → Bool
  | .finite .. => true
  | _ => false

/-- The number in another width. -/
def widen (width : Width) : Binary → Binary
  | .finite negative m e =>
    let fraction := scaled m 1 (-e)
    width.nearest negative fraction.1 fraction.2
  | other => other

end Binary

example : double.ofDecimal false 1 (-1) = .finite false 0x1999999999999A (-56) := by
  decide +kernel
example : double.ofDecimal false 5 (-324) = .finite false 1 (-1074) := by decide +kernel
example : double.ofDecimal false 2 (-324) = .finite false 0 (-1074) := by decide +kernel
example : double.ofDecimal true 18 307 = .infinite true := by decide +kernel

end XmlTemplate.Decimal
