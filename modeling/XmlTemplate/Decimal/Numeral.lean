import XmlTemplate.Decimal.Binary
import XmlTemplate.Decimal.Integer

/-!
# Reading floating-point numbers

A numeral is an optional sign and either a word for infinity or for the undefined number, in any
case, or decimal digits with an optional point and an optional exponent. It denotes the number of a
width that is nearest to its value.
-/

namespace XmlTemplate.Decimal

/-- A decimal number: `digits` times ten to the power `exponent`. -/
structure Numeral where
  digits : Nat
  exponent : Int
  deriving DecidableEq, Repr

/-- An exponent after its letter: an optional sign and at least one digit. -/
def exponent? : List Char → Option Int
  | '+' :: digits => (digits? digits).map Int.ofNat
  | '-' :: digits => (digits? digits).map fun n => -Int.ofNat n
  | digits => (digits? digits).map Int.ofNat

/-- A numeral without its sign: digits with an optional point, at least one of them, and an optional
exponent. -/
def numeral? (text : List Char) : Option Numeral :=
  let whole := text.takeWhile isDigit
  let rest := text.dropWhile isDigit
  let fraction := match rest with
    | '.' :: rest => rest.takeWhile isDigit
    | _ => []
  let rest := match rest with
    | '.' :: rest => rest.dropWhile isDigit
    | rest => rest
  if whole.isEmpty && fraction.isEmpty then none
  else
    let digits := ofDigits (whole ++ fraction)
    let shift : Int := -(fraction.length : Int)
    match rest with
    | [] => some ⟨digits, shift⟩
    | 'e' :: rest | 'E' :: rest => (exponent? rest).map fun e => ⟨digits, shift + e⟩
    | _ => none

/-- A text in lower case letters. -/
def lower (text : List Char) : List Char := text.map Char.toLower

/-- The number of a width that a text without sign denotes. -/
def Width.readUnsigned? (width : Width) (negative : Bool) (text : List Char) : Option Binary :=
  if lower text = "inf".toList ∨ lower text = "infinity".toList then some (.infinite negative)
  else if lower text = "nan".toList then some .nan
  else (numeral? text).map fun n => width.ofDecimal negative n.digits n.exponent

/-- The number of a width that a text denotes. -/
def Width.read? (width : Width) (text : String) : Option Binary :=
  match text.toList with
  | '-' :: text => width.readUnsigned? true text
  | '+' :: text => width.readUnsigned? false text
  | text => width.readUnsigned? false text

example : numeral? "12.5e-3".toList = some ⟨125, -4⟩ := by decide +kernel
example : double.read? "-Infinity" = some (.infinite true) := by decide +kernel
example : double.read? "." = none ∧ double.read? "1e" = none := by decide +kernel
example : double.read? ".5" = double.read? "5E-1" := by decide +kernel

end XmlTemplate.Decimal
