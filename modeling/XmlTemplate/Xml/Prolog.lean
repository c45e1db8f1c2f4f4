import XmlTemplate.Xml.Error

/-!
# Prologs

A document is a declaration, which names the encoding as it is given, followed by its body. The
declaration is the one that quick-xml writes for version 1.0 and an encoding.
-/

namespace XmlTemplate.Xml

/-- The encoding that documents have by default. -/
def defaultEncoding : String := "UTF-8"

/-- The declaration of a document. -/
def declaration (encoding : String) : String :=
  "<?xml version=\"1.0\" encoding=\"" ++ encoding ++ "\"?>"

/-- The declaration written into a sink of bytes, which may take a limited number of them and then
fail. -/
def writeDeclaration (limit : Option Nat) (encoding : String) : ByteArray × Except XmlError Unit :=
  let bytes := (declaration encoding).toUTF8
  match limit with
  | none => (bytes, .ok ())
  | some limit =>
    if bytes.size ≤ limit then (bytes, .ok ()) else (bytes.extract 0 limit, .error .sinkFull)

/-- A document of a body. -/
def document (body encoding : String) : String := declaration encoding ++ body

end XmlTemplate.Xml
