import XmlTemplate.Decimal.Integer
import XmlTemplate.Json.Basic

/-!
# Reading JSON numbers

A number without a point and an exponent is whole if it fits a machine word. All others become
floating-point numbers in a quick way that rounds more than once: as many leading digits as fit a
word are kept, rounded to the nearest number, and multiplied or divided by the number nearest to the
power of ten that is left. This is how serde_json reads numbers unless exact ones are asked for.

Results:
1. `keepWhole_of_fits`: a digit that fits is kept.
-/

namespace XmlTemplate.Json

open Decimal (Binary double digitValue wordBound)

/-- One more digit fits a word. -/
def fits (significand : Nat) (c : Char) : Bool :=
  decide (10 * significand + digitValue c < wordBound)

/-- The digits of the whole part that fit a word, and the number of those that do not. -/
def keepWhole (significand : Nat) : List Char → Nat × Nat
  | [] => (significand, 0)
  | c :: digits =>
    if fits significand c then keepWhole (10 * significand + digitValue c) digits
    else (significand, digits.length + 1)

/-- The digits of the fraction as long as they fit a word, and the number of those kept. -/
def keepFraction (significand : Nat) : List Char → Nat × Nat
  | [] => (significand, 0)
  | c :: digits =>
    if fits significand c then
      let kept := keepFraction (10 * significand + digitValue c) digits
      (kept.1, kept.2 + 1)
    else (significand, 0)

theorem keepWhole_of_fits {significand : Nat} {c : Char} (room : fits significand c = true)
    (digits : List Char) :
    keepWhole significand (c :: digits) =
      keepWhole (10 * significand + digitValue c) digits := by
  simp [keepWhole, room]

/-- The greatest exponent of ten that floating-point numbers of 64 bits have. -/
def maxPower : Nat := 308

/-- The number nearest to a power of ten. -/
def powerOfTen (exponent : Nat) : Binary := double.ofDecimal false 1 exponent

/-- A number divided so many times by the greatest power of ten. -/
def shrink (x : Binary) : (times : Nat) → Binary
  | 0 => x
  | times + 1 => shrink (x.div double (powerOfTen maxPower)) times

/-- The digits times a power of ten, in the quick way; nothing if the number is too large. Four
divisions by the greatest power leave nothing of any word. -/
def scaleQuick? (significand : Nat) (exponent : Int) : Option Binary :=
  let start := double.nearest false significand 1
  if 0 ≤ exponent then
    if significand = 0 then some start
    else if exponent ≤ maxPower then
      let product := start.mul double (powerOfTen exponent.toNat)
      if product.isFinite then some product else none
    else none
  else
    let places := exponent.natAbs
    let times := min ((places - 1) / maxPower) 4
    let left := min (places - times * maxPower) maxPower
    some ((shrink start times).div double (powerOfTen left))

/-- The number with its sign. -/
def signed (negative : Bool) (x : Binary) : Binary := if negative then x.neg else x

/-- A number without a point and an exponent whose digits fit a word. Negative zero and negative
numbers below the range of whole numbers are floating-point numbers. -/
def wholeOrReal (negative : Bool) (n : Nat) : JsonNumber :=
  if negative then
    if n = 0 ∨ Nat.pow 2 63 < n then .real (double.nearest true n 1) else .whole (-(n : Int))
  else .whole n

/-- An exponent after its letter, with the characters after it. -/
def readExponent : List Char → Option (Int × List Char)
  | '+' :: text => digitsThen 1 text
  | '-' :: text => digitsThen (-1) text
  | text => digitsThen 1 text
where
  /-- At least one digit, with a sign, and the characters after them. -/
  digitsThen (sign : Int) (text : List Char) : Option (Int × List Char) :=
    (Decimal.digits? (text.takeWhile Decimal.isDigit)).map fun n =>
      (sign * n, text.dropWhile Decimal.isDigit)

/-- The rest of a floating-point number after its significand: an optional exponent. -/
def readScale (negative : Bool) (significand : Nat) (exponent : Int) :
    List Char → Option (JsonNumber × List Char)
  | 'e' :: text | 'E' :: text => do
    let (power, rest) ← readExponent text
    let x ← scaleQuick? significand (exponent + power)
    return (.real (signed negative x), rest)
  | rest => do
    let x ← scaleQuick? significand exponent
    return (.real (signed negative x), rest)

/-- A number after its sign, and the characters after it. Only zero itself starts with a zero. -/
def readNumber (negative : Bool) (text : List Char) : Option (JsonNumber × List Char) :=
  let whole := text.takeWhile Decimal.isDigit
  let rest := text.dropWhile Decimal.isDigit
  let kept := keepWhole 0 whole
  if whole.isEmpty || (whole.head? == some '0' && whole != ['0']) then none
  else
    match rest with
    | '.' :: text =>
      let fraction := text.takeWhile Decimal.isDigit
      let keptMore := keepFraction kept.1 fraction
      if fraction.isEmpty then none
      else readScale negative keptMore.1 (kept.2 - keptMore.2) (text.dropWhile Decimal.isDigit)
    | rest =>
      if kept.2 = 0 ∧ rest.head? ≠ some 'e' ∧ rest.head? ≠ some 'E' then
        some (wholeOrReal negative kept.1, rest)
      else readScale negative kept.1 kept.2 rest

end XmlTemplate.Json
