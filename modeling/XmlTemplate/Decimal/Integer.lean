/-!
# Reading whole numbers

A whole number is an optional sign and at least one decimal digit, and lies in a given range.
Leading zeros do not matter. Natural numbers take a plus sign only.

Results:
1. `natural?_lt`: what is read lies in the range.
-/

namespace XmlTemplate.Decimal

/-- The numbers of a machine word lie below this bound. -/
def wordBound : Nat := Nat.pow 2 64

/-- A decimal digit. -/
def isDigit (c : Char) : Bool := decide ('0' ≤ c) && decide (c ≤ '9')

/-- The value of a decimal digit. -/
def digitValue (c : Char) : Nat := c.toNat - '0'.toNat

/-- The value of a run of digits. -/
def ofDigits (digits : List Char) : Nat :=
  digits.foldl (fun n c => 10 * n + digitValue c) 0

/-- The value of a non-empty run of digits and nothing else. -/
def digits? (text : List Char) : Option Nat :=
  if !text.isEmpty && text.all isDigit then some (ofDigits text) else none

/-- A natural number below `bound`, with an optional plus sign. -/
def natural? (bound : Nat) (text : String) : Option Nat :=
  let value? := match text.toList with
    | '+' :: digits => digits? digits
    | digits => digits? digits
  value?.filter (· < bound)

/-- A whole number from `least` to `greatest`, with an optional sign. -/
def integer? (least greatest : Int) (text : String) : Option Int :=
  let value? := match text.toList with
    | '+' :: digits => (digits? digits).map Int.ofNat
    | '-' :: digits => (digits? digits).map fun n => -Int.ofNat n
    | digits => (digits? digits).map Int.ofNat
  value?.filter fun n => decide (least ≤ n) && decide (n ≤ greatest)

theorem natural?_lt {bound n : Nat} {text : String} (read : natural? bound text = some n) :
    n < bound := by
  simp only [natural?] at read
  have := (Option.filter_eq_some_iff.mp read).2
  simpa using this

example : natural? wordBound "+007" = some 7 := by rfl
example : natural? wordBound "-0" = none := by rfl
example : integer? (-128) 127 "-128" = some (-128) := by rfl

end XmlTemplate.Decimal
