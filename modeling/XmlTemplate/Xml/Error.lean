/-!
# Errors of documents

A document is malformed, has a malformed attribute, or leaves elements open; and a sink of bytes may
be full before a declaration is written.
-/

namespace XmlTemplate.Xml

/-- Why a text is no document. -/
inductive Malformed where
  | openTag
  /-- An attribute value is not closed by its quote. -/
  | openValue (quote : Char)
  | openComment
  | openCharacterData
  | openDoctype
  | openInstruction
  | openDeclaration
  | unknownMarkup
  | openReference
  | noDoctypeName
  | mismatch (expected found : String)
  | unopened (name : String)
  deriving DecidableEq, Repr

/-- The text of the error. -/
def Malformed.message : Malformed → String
  | .openTag => "syntax error: tag not closed: \x60>\x60 not found before end of input"
  | .openValue quote =>
    "syntax error: attribute value not closed: \x60" ++ quote.toString ++
      "\x60 not found before end of input"
  | .openComment => "syntax error: comment not closed: \x60-->\x60 not found before end of input"
  | .openCharacterData => "syntax error: CDATA not closed: \x60]]>\x60 not found before end of input"
  | .openDoctype => "syntax error: DOCTYPE not closed: \x60>\x60 not found before end of input"
  | .openInstruction =>
    "syntax error: processing instruction not closed: \x60?>\x60 not found before end of input"
  | .openDeclaration =>
    "syntax error: XML declaration not closed: \x60?>\x60 not found before end of input"
  | .unknownMarkup => "syntax error: unknown or missed symbol in markup"
  | .openReference =>
    "ill-formed document: entity or character reference not closed: \x60;\x60 not found before " ++
      "end of input"
  | .noDoctypeName =>
    "ill-formed document: \x60<!DOCTYPE>\x60 declaration does not contain a name of a document type"
  | .mismatch expected found =>
    "ill-formed document: expected \x60</" ++ expected ++ ">\x60, but \x60</" ++ found ++
      ">\x60 was found"
  | .unopened name =>
    "ill-formed document: close tag \x60</" ++ name ++ ">\x60 does not match any open tag"

/-- Why the attributes of a tag cannot be read, with offsets in bytes from the start of its name. -/
inductive AttributeError where
  | expectedEquals (offset : Nat)
  | expectedValue (offset : Nat)
  | unquotedValue (offset : Nat)
  | expectedQuote (offset : Nat) (quote : Char)
  | duplicated (offset first : Nat)
  deriving DecidableEq, Repr

/-- The text of the error. -/
def AttributeError.message : AttributeError → String
  | .expectedEquals offset =>
    "position " ++ toString offset ++
      ": attribute key must be directly followed by \x60=\x60 or space"
  | .expectedValue offset =>
    "position " ++ toString offset ++ ": \x60=\x60 must be followed by an attribute value"
  | .unquotedValue offset =>
    "position " ++ toString offset ++
      ": attribute value must be enclosed in \x60\"\x60 or \x60'\x60"
  | .expectedQuote offset quote =>
    "position " ++ toString offset ++ ": missing closing quote \x60" ++ quote.toString ++
      "\x60 in attribute value"
  | .duplicated offset first =>
    "position " ++ toString offset ++ ": duplicated attribute, previous declaration at position " ++
      toString first

/-- An error of a document. -/
inductive XmlError where
  /-- The sink takes no more bytes. -/
  | sinkFull
  | malformed (cause : Malformed)
  | attributes (cause : AttributeError)
  /-- So many elements are open at the end. -/
  | unclosed (elements : Nat)
  deriving DecidableEq, Repr

/-- The text of the error. -/
def XmlError.message : XmlError → String
  | .sinkFull => "I/O error: sink full"
  | .malformed cause => "XML processing error: " ++ cause.message
  | .attributes cause => "XML attribute error: " ++ cause.message
  | .unclosed elements => toString elements ++ " element(s) left unclosed at end of document"

end XmlTemplate.Xml
