import XmlTemplate.Proofs.Xml.Pieces
import XmlTemplate.Serializer.Basic

/-!
# Documents and their bodies

A document is a declaration in front of the text of an object, so there is a document exactly when
there is this text. The declaration names the encoding as it is given, without escaping. It ends where
`?>` stands first, so every encoding without these two signs leaves what comes after it as it is.

Results:
1. `document_eq_error_iff`: a document fails with the error of its text.
2. `toUTF8_document`: the bytes of a document are those of its declaration and those of its body.
3. `checkWellFormed_document`: the check of a document comes to the result of the check of its body.
-/

namespace XmlTemplate

open Render (RenderError)
open Xml (checkWellFormed writeDeclaration)

theorem Serializer.document_eq_error_iff {serializer : Serializer} {root : Object}
    {error : RenderError} :
    serializer.document root = .error error ↔ serializer.serialize root = .error error := by
  unfold document
  cases serializer.serialize root <;> simp [Except.map]

theorem Xml.toUTF8_document (body encoding : String) :
    (document body encoding).toUTF8 = (writeDeclaration none encoding).1 ++ body.toUTF8 :=
  String.toByteArray_append

/-- There is a document of an object if and only if there is its text, and otherwise it fails with the
same error. Its bytes are those of the declaration, in which the encoding stands as it was set, and
those of the text. Whatever the body is, well formed or not, and whatever else the encoding is, if it
does not have the end of an instruction in it: the check of the document finds so many elements as the
check of the body, or the same error. -/
theorem checkWellFormed_document (serializer : Serializer) (root : Object) :
    (∀ error, serializer.document root = .error error ↔ serializer.serialize root = .error error) ∧
    (∀ text, serializer.document root = .ok text ↔ ∃ body, serializer.serialize root = .ok body ∧
      text = "<?xml version=\"1.0\" encoding=\"" ++ serializer.settings.encoding ++ "\"?>" ++ body) ∧
    (∀ body label, (writeDeclaration none label).2 = .ok () ∧
      (Xml.document body label).toUTF8 = (writeDeclaration none label).1 ++ body.toUTF8) ∧
    ∀ body label, ¬ ['?', '>'] <:+: label.toList →
      checkWellFormed (Xml.document body label) = checkWellFormed body := by
  refine ⟨fun error => Serializer.document_eq_error_iff, fun text => ?_, fun body label => ?_,
    fun body label free => ?_⟩
  · exact Serializer.document_eq_ok_iff
  · exact ⟨rfl, Xml.toUTF8_document body label⟩
  · exact Xml.checkWellFormed_append (Xml.passes_declaration free) body

/-- An encoding with quotes, brackets and a question mark at its end, and a body that starts with a byte
order mark and closes another element than it opens. -/
theorem checkWellFormed_document_mismatch :
    let label := "x\"'<!--&?"
    let body := "\ufeff<a b='1'></c>"
    ¬ ['?', '>'] <:+: label.toList ∧
      Xml.document body label = "<?xml version=\"1.0\" encoding=\"x\"'<!--&?\"?>\ufeff<a b='1'></c>" ∧
      checkWellFormed body = .error (.malformed (.mismatch "a" "c")) ∧
      checkWellFormed (Xml.document body label) = .error (.malformed (.mismatch "a" "c")) := by
  intro label body
  have free : ¬ ['?', '>'] <:+: label.toList := by decide +kernel
  have written : Xml.document body label =
      "<?xml version=\"1.0\" encoding=\"x\"'<!--&?\"?>\ufeff<a b='1'></c>" := by decide +kernel
  have refused : checkWellFormed "\ufeff<a b='1'></c>" = .error (.malformed (.mismatch "a" "c")) := by rfl
  obtain ⟨-, -, -, same⟩ := checkWellFormed_document ⟨⟨[]⟩, .standard⟩ (.plain "")
  exact ⟨free, written, refused, (same body label free).trans refused⟩

end XmlTemplate
