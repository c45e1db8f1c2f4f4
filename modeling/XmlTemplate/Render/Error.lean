import XmlTemplate.Xml.Name

/-!
# Errors of rendering

Rendering stops when an expression does not resolve, when a resolved name is no name, and when the
sink takes no more.
-/

namespace XmlTemplate.Render

/-- Why a segment or a repetition fails. -/
inductive Reason where
  | outOfRange
  | noAccess
  | noEntry
  | notDigits
  | pairsOnly
  | notRepeatable
  | notPairs
  | notMapping
  deriving DecidableEq, Repr

/-- The reason as messages show it. -/
def Reason.text : Reason → String
  | .outOfRange => "index out of range"
  | .noAccess => "object has no attributes, keys or indices"
  | .noEntry => "no such attribute or key"
  | .notDigits => "sequences only accept numeric indices"
  | .pairsOnly => "object only supports pair enumeration"
  | .notRepeatable => "not a sequence, mapping or non-negative integer"
  | .notPairs => "sequence items are not key/value pairs"
  | .notMapping => "not a mapping or sequence of pairs"

/-- An expression that does not resolve: what resolved, the segment after it, and why it fails. -/
structure LookupError where
  path : String
  segment : String
  reason : Reason
  deriving DecidableEq, Repr

/-- What a name was resolved for. -/
inductive NameKind where
  | tag
  | attribute
  deriving DecidableEq, Repr

/-- The kind as messages show it. -/
def NameKind.text : NameKind → String
  | .tag => "tag"
  | .attribute => "attribute"

/-- An error of rendering. -/
inductive RenderError where
  | lookup (error : LookupError)
  /-- A resolved text is no name of its kind. -/
  | invalidName (kind : NameKind) (name : String) (cause : Xml.NameError)
  /-- The sink takes no more. -/
  | write
  deriving DecidableEq, Repr

/-- The text of the error. -/
def RenderError.message : RenderError → String
  | .lookup error =>
    "lookup of '" ++ error.segment ++ "' failed after '" ++ error.path ++ "': " ++
      error.reason.text
  | .invalidName kind name cause =>
    "invalid " ++ kind.text ++ " name " ++ Text.quoted name ++ ": " ++ cause.message
  | .write => "failed to write rendered output"

end XmlTemplate.Render
