import XmlTemplate.Decimal.Shortest

/-!
# Layouts of floating-point numbers

A layout says how the shortest decimal of a number is written: in which range of exponents its
digits stand around a point, whether a point is always written, which of two equally near decimals is
taken, and what stands for an undefined or infinite number.

Results:
1. `aroundPoint_of_nonneg`: a decimal without a fraction is written with zeros at its end.
-/

namespace XmlTemplate.Decimal

/-- The decisions of a layout. -/
structure Layout where
  tie : Tie
  /-- The exponents of the first digit for which the digits stand around a point; all of them if
  there is no range. -/
  positional : Option (Int × Int)
  /-- A number without a fraction ends with a point and a zero. -/
  point : Bool
  /-- The text of the undefined number. -/
  nan : String
  /-- The text of the infinite numbers, after their sign. -/
  infinite : String

/-- As text: never an exponent, and a point only in front of a fraction. -/
def asText : Layout := ⟨.away, none, false, "NaN", "inf"⟩

/-- As a number in JSON: an exponent for very small and very large numbers, and always a point or an
exponent. Numbers that are not finite are null. -/
def asJson : Layout := ⟨.toEven, some (-5, 15), true, "null", "null"⟩

/-- A decimal with its digits around the point. -/
def aroundPoint (point : Bool) (decimal : Number) : List Char :=
  let digits := Nat.toDigits 10 decimal.digits
  let places := (-decimal.exponent).toNat
  if 0 ≤ decimal.exponent then
    digits ++ List.replicate decimal.exponent.toNat '0' ++ (if point then ['.', '0'] else [])
  else if places < digits.length then
    digits.take (digits.length - places) ++ '.' :: digits.drop (digits.length - places)
  else '0' :: '.' :: (List.replicate (places - digits.length) '0' ++ digits)

theorem aroundPoint_of_nonneg {decimal : Number} (whole : 0 ≤ decimal.exponent) :
    aroundPoint false decimal =
      Nat.toDigits 10 decimal.digits ++ List.replicate decimal.exponent.toNat '0' := by
  simp [aroundPoint, whole]

/-- The exponent of the first digit. -/
def Number.leading (decimal : Number) : Int :=
  decimal.exponent + (Nat.toDigits 10 decimal.digits).length - 1

/-- An exponent with its sign. -/
def exponentText (exponent : Int) : List Char :=
  (if exponent < 0 then '-' else '+') :: Nat.toDigits 10 exponent.natAbs

/-- A decimal with one digit before the point and an exponent. -/
def scientific (decimal : Number) : List Char :=
  let exponent := 'e' :: exponentText decimal.leading
  match Nat.toDigits 10 decimal.digits with
  | first :: second :: rest => first :: '.' :: second :: rest ++ exponent
  | digits => digits ++ exponent

namespace Layout

/-- A decimal in a layout. -/
def decimal (layout : Layout) (decimal : Number) : List Char :=
  match layout.positional with
  | none => aroundPoint layout.point decimal
  | some (least, greatest) =>
    if least ≤ decimal.leading ∧ decimal.leading ≤ greatest then aroundPoint layout.point decimal
    else scientific decimal

/-- The sign of a number. -/
def sign (negative : Bool) : List Char := if negative then ['-'] else []

/-- The number in a layout; `width` tells which decimals read back. -/
def write (layout : Layout) (width : Width) : Binary → String
  | .nan => layout.nan
  | .infinite negative => String.ofList (sign negative) ++ layout.infinite
  | .finite negative 0 _ => String.ofList (sign negative ++ layout.decimal ⟨0, 0⟩)
  | .finite negative significand exponent =>
    String.ofList (sign negative ++
      layout.decimal (shortest width layout.tie significand exponent))

end Layout

end XmlTemplate.Decimal
