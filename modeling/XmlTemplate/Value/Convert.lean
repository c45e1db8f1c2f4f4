import XmlTemplate.Value.Json

/-!
# Values from scalars

Scalars of a host become values one by one, and some kinds of data have no value.
-/

namespace XmlTemplate.Value

/-- The value of a whole number. -/
def ofInteger (n : Int) : Value := .number (toString n)

/-- The value of a floating-point number of a width. -/
def ofBinary (width : Decimal.Width) (x : Decimal.Binary) : Value :=
  .number (Decimal.asText.write width x)

/-- The value of something that may be missing. -/
def ofOption {α : Type} (convert : α → Value) : Option α → Value
  | some x => convert x
  | none => .null

/-- The value of something repeated. -/
def ofList {α : Type} (convert : α → Value) (items : List α) : Value := .list (items.map convert)

/-- Data that a value is read from. -/
inductive Source where
  | json (value : Json)
  | missing
  | char (c : Char)
  | integer (n : Int)
  | binary (x : Decimal.Binary)
  | bytes
  /-- A number of 128 bits. -/
  | wide (n : Nat)

/-- Data that no value is read from. -/
inductive Unsupported where
  | bytes
  | wide (n : Nat)
  deriving DecidableEq, Repr

/-- The text of the error. -/
def Unsupported.message : Unsupported → String
  | .bytes => "invalid type: byte array, expected any self-describing value"
  | .wide n =>
    "invalid type: integer \x60" ++ toString n ++
      "\x60 as u128, expected any self-describing value"

/-- The value that data is read as. Floating-point numbers have 64 bits. -/
def read : Source → Except Unsupported Value
  | .json value => .ok (decode value)
  | .missing => .ok .null
  | .char c => .ok (.string c.toString)
  | .integer n => .ok (ofInteger n)
  | .binary x => .ok (ofBinary Decimal.double x)
  | .bytes => .error .bytes
  | .wide n => .error (.wide n)

end XmlTemplate.Value
