import XmlTemplate.Text.Ranges

/-!
# Blank characters

The white space of the format language is the property White_Space of Unicode, which holds of
more characters than the four spaces of XML.
-/

namespace XmlTemplate.Text

/-- The code points of the property White_Space. -/
def blanks : Ranges :=
  [(0x09, 0x0D), (0x20, 0x20), (0x85, 0x85), (0xA0, 0xA0), (0x1680, 0x1680), (0x2000, 0x200A),
    (0x2028, 0x2029), (0x202F, 0x202F), (0x205F, 0x205F), (0x3000, 0x3000)]

/-- A character is blank when it has the property White_Space. -/
def isBlank (c : Char) : Bool := blanks.contains c

example : (Char.ofNat 0x3000).isWhitespace = false ∧ isBlank (Char.ofNat 0x3000) = true := by decide
example : isBlank (Char.ofNat 0x200B) = false := by decide

end XmlTemplate.Text
