import XmlTemplate.Format.Token

/-!
# Faults of a format string

A fault is an offset, what could have stood there, and what was found. The message of a
`FormatError` also quotes the surroundings of the offset.
-/

namespace XmlTemplate.Format

/-- The greatest number of elements and scopes inside one another. -/
def maxDepth : Nat := 128

/-- What could have stood at the place of a fault. -/
inductive Expectation where
  | token
  | closingQuote
  | escape
  | node
  | tagName
  | attributeName
  | attributeValue
  | content
  | entrySource
  | repetitionSource
  | boundedCount
  | scopeSource
  | segment
  | elementPart
  | elementEnd
  | scopePart
  | shallower
  | root
  | singleRoot
  | endAfterRoot
  deriving DecidableEq, Repr

/-- The expectation as messages show it. -/
def Expectation.text : Expectation → String
  | .token => "token"
  | .closingQuote => "closing '\"'"
  | .escape => "escape sequence \\\", \\\\, \\t or \\n"
  | .node => "'<', '\x7b' or '&'"
  | .tagName => "tag name"
  | .attributeName => "attribute name"
  | .attributeValue => "attribute value"
  | .content => "text or lookup after '&'"
  | .entrySource => "lookup expression after '~'"
  | .repetitionSource => "repetition count or lookup after '*'"
  | .boundedCount => "repetition count that fits in usize"
  | .scopeSource => "lookup expression after '\x7b'"
  | .segment => "name or index after '.'"
  | .elementPart => "'=', '&', '<', '\x7b' or '>'"
  | .elementEnd => "'>'"
  | .scopePart => "'<', '\x7b', '&' or '\x7d'"
  | .shallower => "at most " ++ toString maxDepth ++ " nested elements or groups"
  | .root => "root element"
  | .singleRoot => "single root element"
  | .endAfterRoot => "end of input after root element"

/-- What was found at the place of a fault. -/
inductive Finding where
  | token (token : Token)
  | endOfInput
  | blank (c : Char)
  | backslash
  | unknownEscape (c : Char)
  | repeatedElement
  | otherNode
  | anotherNode
  deriving DecidableEq, Repr

/-- The finding as messages show it. -/
def Finding.text : Finding → String
  | .token found => found.text
  | .endOfInput => "end of input"
  | .blank c => "whitespace " ++ Text.quotedChar c ++ " (quote it)"
  | .backslash => "'\\' outside a quoted token"
  | .unknownEscape c => "'\\" ++ c.toString ++ "'"
  | .repeatedElement => "repeated element"
  | .otherNode => "text, lookup or group"
  | .anotherNode => "another top-level node"

/-- A fault at an offset of the format string. -/
structure Fault where
  offset : Nat
  expected : Expectation
  found : Finding
  deriving DecidableEq, Repr

/-- The finding at the front of a stream. -/
def Tokens.finding : Tokens → Finding
  | .done _ => .endOfInput
  | .next token _ _ => .token token

/-- The front of a stream is not what is expected. -/
def Tokens.fault (tokens : Tokens) (expected : Expectation) : Fault :=
  ⟨tokens.offset, expected, tokens.finding⟩

/-- The up to ten characters on either side of an offset. -/
def excerpt (format : List Char) (offset : Nat) : List Char :=
  (format.take (offset + 10)).drop (offset - 10)

/-- A fault together with the surroundings of its offset. -/
structure FormatError where
  fault : Fault
  near : String
  deriving DecidableEq, Repr

namespace FormatError

/-- The error for a fault of `format`. -/
def ofFault (format : List Char) (fault : Fault) : FormatError :=
  ⟨fault, String.ofList (excerpt format fault.offset)⟩

/-- The text of the error. -/
def message (error : FormatError) : String :=
  "syntax error at offset " ++ toString error.fault.offset ++
    ": expected " ++ error.fault.expected.text ++ ", found " ++ error.fault.found.text ++
    " (near " ++ Text.quoted error.near ++ ")"

end FormatError

end XmlTemplate.Format
