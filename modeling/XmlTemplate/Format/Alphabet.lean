import XmlTemplate.Decimal.Integer
import XmlTemplate.Text.Blank

/-!
# The characters of the format language

Outside quotes a character is a reserved sign, a blank (which is an error) or part of a bare word.
-/

namespace XmlTemplate.Format

/-- The signs that cannot be part of a bare word. -/
def reserved : List Char := ['<', '>', '&', '=', '.', '?', '*', '~', '\x7b', '\x7d', '"', '\\']

/-- A reserved sign has a meaning of its own outside quotes. -/
def isReserved (c : Char) : Bool := reserved.contains c

/-- A bare character needs no quotes. -/
def isBare (c : Char) : Bool := !Text.isBlank c && !isReserved c

/-- A text that can stand without quotes. -/
def isBareWord (text : String) : Bool := !text.isEmpty && text.toList.all isBare

/-- A non-empty run of digits. -/
def isDigits (text : String) : Bool := !text.isEmpty && text.toList.all Decimal.isDigit

end XmlTemplate.Format
