import XmlTemplate.Text.Printable

/-!
# Quoted text in messages

Messages show a text or a single character between quotes, with everything invisible spelled out.
-/

namespace XmlTemplate.Text

/-- The single quote. -/
def apostrophe : Char := Char.ofNat 39

/-- The spelling of a character by its code point in lower case hexadecimal digits. -/
def codePoint (c : Char) : List Char :=
  ['\\', 'u', '\x7b'] ++ Nat.toDigits 16 c.toNat ++ ['\x7d']

/-- The spelling of a character between quotes `quote`. -/
def quotedUnit (quote c : Char) : List Char :=
  if c = Char.ofNat 0 then ['\\', '0']
  else if c = '\t' then ['\\', 't']
  else if c = '\r' then ['\\', 'r']
  else if c = '\n' then ['\\', 'n']
  else if c = '\\' ∨ c = quote then ['\\', c]
  else if isExtender c || !isPrintable c then codePoint c
  else [c]

/-- Characters spelled between quotes `quote`. -/
def enclosed (quote : Char) (text : List Char) : String :=
  String.ofList (quote :: (text.flatMap (quotedUnit quote) ++ [quote]))

/-- A text between double quotes. -/
def quoted (text : String) : String := enclosed '"' text.toList

/-- A character between single quotes. -/
def quotedChar (c : Char) : String := enclosed apostrophe [c]

end XmlTemplate.Text
