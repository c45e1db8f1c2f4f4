import XmlTemplate.Xml.Prolog

/-!
# Settings

A serializer can ask for a single root element and names the encoding of its documents. Both can be
set by variables of the environment.
-/

namespace XmlTemplate

/-- The settings of a serializer. -/
structure Settings where
  /-- Templates have to be one element that is not repeated. -/
  singleRoot : Bool
  /-- The encoding that documents name. -/
  encoding : String
  deriving DecidableEq, Repr

namespace Settings

/-- Any template, and the default encoding. -/
def standard : Settings := ⟨false, Xml.defaultEncoding⟩

instance : Inhabited Settings := ⟨standard⟩

/-- The variable that asks for a single root. -/
def singleRootVariable : String := "XMLSER_SINGLE_ROOT"

/-- The variable that names the encoding. -/
def encodingVariable : String := "XMLSER_ENCODING"

/-- The text of a variable; bytes that are no text count as unset. -/
def textOf (environment : String → Option ByteArray) (name : String) : Option String :=
  (environment name).bind String.fromUTF8?

/-- A variable is set to one of the words for yes. -/
def isYes (text : String) : Bool := ["1", "true", "yes", "TRUE", "YES"].contains text

/-- The settings that the variables of an environment give. -/
def ofEnvironment (environment : String → Option ByteArray) : Settings where
  singleRoot := ((textOf environment singleRootVariable).map isYes).getD false
  encoding := (textOf environment encodingVariable).getD Xml.defaultEncoding

/-- The settings with or without a single root. -/
def withSingleRoot (settings : Settings) (singleRoot : Bool) : Settings :=
  { settings with singleRoot := singleRoot }

/-- The settings with another encoding. -/
def withEncoding (settings : Settings) (encoding : String) : Settings :=
  { settings with encoding := encoding }

end Settings

end XmlTemplate
