import XmlTemplate.Render.Node
import XmlTemplate.Serializer.Settings
import XmlTemplate.Template.Compile

/-!
# Serializers

A serializer is a compiled template with its settings. It is compiled once and renders any number of
objects; a render that fails leaves it as it was.

Results:
1. `settings_of_compile`: a serializer has the settings that it was compiled with.
2. `document_eq_ok_iff`: a document is its declaration and the text of the object.
-/

namespace XmlTemplate

open Render (RenderError Sink)

/-- A compiled template with its settings. -/
structure Serializer where
  template : Template
  settings : Settings
  deriving DecidableEq, Repr

namespace Serializer

/-- The serializer of a format string. -/
def compile (format : String) (settings : Settings) : Except Format.FormatError Serializer :=
  match Template.compileWith settings.singleRoot format with
  | .ok template => .ok ⟨template, settings⟩
  | .error error => .error error

theorem settings_of_compile {format : String} {settings : Settings} {serializer : Serializer}
    (compiled : compile format settings = .ok serializer) : serializer.settings = settings := by
  unfold compile at compiled
  split at compiled
  · cases compiled
    rfl
  · cases compiled

/-- The text of an object. -/
def serialize (serializer : Serializer) (root : Object) : Except RenderError String :=
  serializer.template.render root

/-- The text of an object is written into a sink. -/
def serializeTo (serializer : Serializer) (root : Object) (sink : Sink) :
    Except RenderError Unit × Sink :=
  serializer.template.renderTo root sink

/-- The document of an object. -/
def document (serializer : Serializer) (root : Object) : Except RenderError String :=
  (serializer.serialize root).map fun body => Xml.document body serializer.settings.encoding

theorem document_eq_ok_iff {serializer : Serializer} {root : Object} {text : String} :
    serializer.document root = .ok text ↔
      ∃ body, serializer.serialize root = .ok body ∧
        text = Xml.declaration serializer.settings.encoding ++ body := by
  unfold document
  cases serializer.serialize root <;> simp [Except.map, Xml.document, eq_comm]

end Serializer

/-! ## In one call -/

/-- An error of a format string or of rendering. -/
inductive SerializeError where
  | format (error : Format.FormatError)
  | render (error : RenderError)
  deriving DecidableEq, Repr

/-- The text of an object in a format string, which is compiled for this one call. -/
def serialize (format : String) (root : Object) : Except SerializeError String :=
  match Serializer.compile format .standard with
  | .ok serializer => (serializer.serialize root).mapError .render
  | .error error => .error (.format error)

end XmlTemplate
