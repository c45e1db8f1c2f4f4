import XmlTemplate.Proofs.Format.Completeness
import XmlTemplate.Proofs.Format.Soundness
import XmlTemplate.Template.Compile

/-!
# Which formats compile

Compiling succeeds for the formats of the grammar and for no others. The template is the one that the
grammar derives with runs of segments as long as possible, and a format that has any derivation has
that one.

Results:
1. `compile_eq`: a format is scanned, and its tokens are read as nodes.
2. `compile_eq_ok_iff_document`: the template of a format is the one that its tokens are a phrase for.
3. `compile_eq_ok_iff_derivable`: the formats that compile, and their templates.
-/

namespace XmlTemplate.Template

open Format Format.Grammar

/-- A format is scanned, and its tokens are read as nodes. -/
theorem compile_eq (format : String) :
    compile format =
      match Format.tokens format.toList >>= fun stream => (readNodes stream).map Prod.fst with
      | .ok nodes => .ok ⟨nodes⟩
      | .error fault => .error (.ofFault format.toList fault) := by
  rw [compile, compileWith, nodesOf]
  cases Format.tokens format.toList with
  | error fault => rfl
  | ok stream =>
    simp only [bind, Except.bind, ← readDocument_eq]
    cases readDocument stream <;> rfl

theorem compile_eq_ok_iff {format : String} {template : Template} :
    compile format = .ok template ↔
      ∃ stream rest, Format.tokens format.toList = .ok stream ∧
        readNodes stream = .ok (template.nodes, rest) := by
  rw [compile_eq]
  cases Format.tokens format.toList with
  | error fault => simp [bind, Except.bind]
  | ok stream =>
    cases read : readNodes stream with
    | error fault => simp [bind, Except.bind, read, Except.map]
    | ok both =>
      obtain ⟨nodes, rest⟩ := both
      cases template
      simp [bind, Except.bind, read, Except.map]

theorem compile_eq_error_iff {format : String} {error : FormatError} :
    compile format = .error error ↔
      ∃ fault, FormatError.ofFault format.toList fault = error ∧
        (Format.tokens format.toList = .error fault ∨
          ∃ stream, Format.tokens format.toList = .ok stream ∧ readNodes stream = .error fault) := by
  rw [compile_eq]
  cases Format.tokens format.toList with
  | error fault => simp [bind, Except.bind]
  | ok stream =>
    cases read : readNodes stream with
    | error fault => simp [bind, Except.bind, read, Except.map]
    | ok both => simp [bind, Except.bind, read, Except.map]

theorem compile_eq_ok_iff_document {format : String} {template : Template} :
    compile format = .ok template ↔
      ∃ stream, Format.tokens format.toList = .ok stream ∧
        Document true stream.sequence template.nodes ∧
          Node.depthAll template.nodes ≤ maxDepth := by
  rw [compile_eq_ok_iff]
  constructor
  · rintro ⟨stream, rest, scanned, read⟩
    exact ⟨stream, scanned, document_of_readNodes true read⟩
  · rintro ⟨stream, scanned, phrases, shallow⟩
    obtain ⟨nodes, rest, read, ends, same⟩ := readNodes_of_document phrases shallow
    exact ⟨stream, rest, scanned, same rfl ▸ read⟩

/-- A format compiles to a template if and only if the grammar derives the template from its tokens
with runs of segments as long as possible, and it compiles at all if the grammar derives anything. -/
theorem compile_eq_ok_iff_derivable (format : String) :
    (∀ template, compile format = .ok template ↔
      ∃ stream, Format.tokens format.toList = .ok stream ∧
        Document true stream.sequence template.nodes ∧
          Node.depthAll template.nodes ≤ maxDepth) ∧
    ((∃ template, compile format = .ok template) ↔
      ∃ stream nodes, Format.tokens format.toList = .ok stream ∧
        Document false stream.sequence nodes ∧ Node.depthAll nodes ≤ maxDepth) := by
  constructor
  · exact fun template => compile_eq_ok_iff_document
  · constructor
    · rintro ⟨template, compiled⟩
      obtain ⟨stream, rest, scanned, read⟩ := compile_eq_ok_iff.mp compiled
      exact ⟨stream, template.nodes, scanned, document_of_readNodes false read⟩
    · rintro ⟨stream, nodes, scanned, phrases, shallow⟩
      obtain ⟨found, rest, read, -⟩ := readNodes_of_document phrases shallow
      exact ⟨⟨found⟩, compile_eq_ok_iff.mpr ⟨stream, rest, scanned, read⟩⟩

end XmlTemplate.Template
