import XmlTemplate.Json.Number

/-!
# Reading JSON texts

A text is one value with optional spaces around it. Arrays and objects nest to a limited depth,
strings hold no control characters, and surrogates come in pairs. The definitions stand for the reader
of serde_json without any of its optional features, and follow its rules for what a text may be: the
grammar of JSON with nothing added to it, and 127 levels.

Results:
1. `readUnits_quote`: a string ends at its closing quote.
-/

namespace XmlTemplate.Json

/-- The four spaces of JSON. -/
def isSpace (c : Char) : Bool := c == ' ' || c == '\t' || c == '\n' || c == '\r'

/-- The characters after leading spaces. -/
def skip (text : List Char) : List Char := text.dropWhile isSpace

/-! ## Strings -/

/-- The value of a hexadecimal digit. -/
def hexValue? (c : Char) : Option Nat :=
  if '0' ≤ c ∧ c ≤ '9' then some (c.toNat - '0'.toNat)
  else if 'a' ≤ c ∧ c ≤ 'f' then some (c.toNat - 'a'.toNat + 10)
  else if 'A' ≤ c ∧ c ≤ 'F' then some (c.toNat - 'A'.toNat + 10)
  else none

/-- The value of four hexadecimal digits. -/
def hexValue4? (a b c d : Char) : Option Nat := do
  return (((← hexValue? a) * 16 + (← hexValue? b)) * 16 + (← hexValue? c)) * 16 + (← hexValue? d)

/-- The first unit of a surrogate pair. -/
def isHigh (unit : Nat) : Bool := decide (0xD800 ≤ unit) && decide (unit < 0xDC00)

/-- The second unit of a surrogate pair. -/
def isLow (unit : Nat) : Bool := decide (0xDC00 ≤ unit) && decide (unit < 0xE000)

/-- The character of a surrogate pair. -/
def combine (high low : Nat) : Char :=
  Char.ofNat (0x10000 + (high - 0xD800) * 0x400 + (low - 0xDC00))

/-- The meaning of a character after a backslash, units aside. -/
def escapeValue? : Char → Option Char
  | '"' => some '"'
  | '\\' => some '\\'
  | '/' => some '/'
  | 'b' => some (Char.ofNat 8)
  | 'f' => some (Char.ofNat 12)
  | 'n' => some '\n'
  | 'r' => some '\r'
  | 't' => some '\t'
  | _ => none

/-- The rest of a string whose characters so far are `seen`, the last one first, and the characters
after its closing quote. -/
def readUnits (seen : List Char) : List Char → Option (String × List Char)
  | [] => none
  | '"' :: text => some (String.ofList seen.reverse, text)
  | '\\' :: 'u' :: a :: b :: c :: d :: text =>
    match hexValue4? a b c d with
    | none => none
    | some unit =>
      if isHigh unit then
        match text with
        | '\\' :: 'u' :: a :: b :: c :: d :: text =>
          match hexValue4? a b c d with
          | none => none
          | some low => if isLow low then readUnits (combine unit low :: seen) text else none
        | _ => none
      else if isLow unit then none
      else readUnits (Char.ofNat unit :: seen) text
  | '\\' :: escape :: text =>
    match escapeValue? escape with
    | none => none
    | some c => readUnits (c :: seen) text
  | c :: text => if c.toNat < 0x20 || c == '\\' then none else readUnits (c :: seen) text

theorem readUnits_quote (seen text : List Char) :
    readUnits seen ('"' :: text) = some (String.ofList seen.reverse, text) := rfl

/-! ## Values -/

/-- A value that is neither an array nor an object. -/
def readScalar (text : List Char) : Option (Json × List Char) :=
  match skip text with
  | 'n' :: 'u' :: 'l' :: 'l' :: rest => some (.null, rest)
  | 't' :: 'r' :: 'u' :: 'e' :: rest => some (.bool true, rest)
  | 'f' :: 'a' :: 'l' :: 's' :: 'e' :: rest => some (.bool false, rest)
  | '"' :: rest => (readUnits [] rest).map fun (text, rest) => (.string text, rest)
  | '-' :: rest => (readNumber true rest).map fun (n, rest) => (.number n, rest)
  | rest => (readNumber false rest).map fun (n, rest) => (.number n, rest)

/-- Items with commas between them up to a closing sign, at most as many as there are characters in
`bound`. -/
def readItems {α : Type} (item : List Char → Option (α × List Char)) (close : Char) :
    (bound : List Char) → List Char → Option (List α × List Char)
  | [], _ => none
  | _ :: bound, text => do
    let (x, rest) ← item text
    match skip rest with
    | ',' :: rest =>
      let (xs, rest) ← readItems item close bound rest
      return (x :: xs, rest)
    | c :: rest => if c = close then return ([x], rest) else none
    | [] => none

/-- No items, or items with commas between them, up to a closing sign. -/
def readGroup {α : Type} (item : List Char → Option (α × List Char)) (close : Char)
    (text : List Char) : Option (List α × List Char) :=
  match skip text with
  | [] => none
  | c :: rest => if c = close then some ([], rest) else readItems item close text text

/-- A key, a colon and a value. -/
def readEntry (value : List Char → Option (Json × List Char)) (text : List Char) :
    Option ((String × Json) × List Char) :=
  match skip text with
  | '"' :: rest => do
    let (key, rest) ← readUnits [] rest
    match skip rest with
    | ':' :: rest =>
      let (found, rest) ← value rest
      return ((key, found), rest)
    | _ => none
  | _ => none

/-- A value with at most `levels` arrays and objects inside one another. -/
def readValue : (levels : Nat) → List Char → Option (Json × List Char)
  | 0, text => readScalar text
  | levels + 1, text =>
    match skip text with
    | '[' :: rest =>
      (readGroup (readValue levels) ']' rest).map fun (items, rest) => (.array items, rest)
    | '\x7b' :: rest =>
      (readGroup (readEntry (readValue levels)) '\x7d' rest).map fun (entries, rest) =>
        (.object entries, rest)
    | rest => readScalar rest

/-- The greatest number of arrays and objects inside one another. -/
def maxLevels : Nat := 127

/-- The value of a whole text, with the entries of objects as they are written. -/
def parse? (text : String) : Option Json :=
  match readValue maxLevels text.toList with
  | some (value, rest) => if (skip rest).isEmpty then some value else none
  | none => none

/-- The value of a whole text, with every object sorted by its keys. -/
def parseSorted? (text : String) : Option Json := (parse? text).map sorted

end XmlTemplate.Json
