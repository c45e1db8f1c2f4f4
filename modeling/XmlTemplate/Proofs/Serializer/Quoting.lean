import XmlTemplate.Proofs.Format.Canonical
import XmlTemplate.Proofs.Serializer.Concatenation

/-!
# Texts in formats

Any text can be written into a format: as a word if its characters are bare, and between quotes
otherwise. Scanning resolves what writing escaped, so the text that is rendered is the text that was
written, escaped for its place in the markup and for nothing else.

Results:
1. `compile_item`, `compile_identified`: a text as a content and as a value of an attribute.
2. `serialize_literal`: what is rendered for it.
-/

namespace XmlTemplate

namespace Format

open Grammar

variable {token : Token} {text : String}

theorem content_of_denotes (denotes : Token.Denotes token text) (rest : List Token) :
    Content true (token :: rest) (.text text) rest := by
  cases denotes with
  | bare bare => exact .bare text rest
  | quoted => exact .quoted text rest

end Format

namespace Template

open Format Format.Grammar

/-- An element with a text in an element around it. -/
def item (text : String) : Template :=
  ⟨[.element ⟨.literal "doc", none, []⟩ [.element ⟨.literal "item", none, []⟩ [.text text]]]⟩

/-- An element with a text as its identifier. -/
def identified (text : String) : Template :=
  ⟨[.element ⟨.literal "item", none, [⟨.literal "id", .literal text⟩]⟩ []]⟩

theorem compile_item {token : Token} {text : String} (denotes : token.Denotes text) :
    compile ("<doc<item&" ++ String.ofList token.spelled ++ ">>") = .ok (item text) := by
  let sequence : List Token :=
    [.less, .bare "doc", .less, .bare "item", .ampersand, token, .greater, .greater]
  have spellable : Spellable sequence :=
    ⟨by decide, by simp, by decide, by simp, spellable_between denotes (by simp) trivial⟩
  have inner : Nested true (sequence.drop 2) (.element ⟨.literal "item", none, []⟩ [.text text])
      [.greater] :=
    .content (.once (.bare "item" _)) (.nil _) (content_of_denotes denotes _)
  have phrases : Document true sequence (item text).nodes :=
    .cons (.nested (.children (.once (.bare "doc" _)) (.nil _) (.cons inner (.nil _)))) (.nil [])
  have spelled : "<doc<item&" ++ String.ofList token.spelled ++ ">>" =
      String.ofList (sequence.flatMap Token.spelled) := by
    apply String.toList_injective
    simp [sequence, Token.spelled]
  have shallow : Node.depthAll (item text).nodes ≤ maxDepth := Nat.le_of_ble_eq_true rfl
  rw [spelled]
  exact compile_spelled spellable phrases shallow

theorem compile_identified (text : String) :
    compile ("<item=id" ++ quote text ++ ">") = .ok (identified text) := by
  let sequence : List Token :=
    [.less, .bare "item", .equals, .bare "id", .quoted text, .greater]
  have spellable : Spellable sequence := ⟨by decide, by simp, by decide, by simp, trivial⟩
  have phrases : Document true sequence (identified text).nodes :=
    .cons (.nested (.children (.once (.bare "item" _))
      (.cons (.both (.bare "id" _) (.quoted text _)) (.nil _)) (.nil _))) (.nil [])
  have spelled : "<item=id" ++ quote text ++ ">" =
      String.ofList (sequence.flatMap Token.spelled) := by
    apply String.toList_injective
    simp [sequence, Token.spelled]
  have shallow : Node.depthAll (identified text).nodes ≤ maxDepth := Nat.le_of_ble_eq_true rfl
  rw [spelled]
  exact compile_spelled spellable phrases shallow

theorem render_item (text : String) (root : Object) :
    (item text).render root = .ok ("<doc><item>" ++ Xml.escapeText text ++ "</item></doc>") := by
  have forest : Render.forest (item text) root =
      .ok [.element "doc" [] [.element "item" [] [.text text]]] := rfl
  rw [Render.render_eq_spellAll, forest]
  refine congrArg Except.ok (String.toList_injective ?_)
  simp [Xml.spellAll, Xml.Tree.spell, Xml.startTag, Xml.endTag, Xml.spellAttributes]

theorem render_identified (text : String) (root : Object) :
    (identified text).render root =
      .ok ("<item id=\"" ++ Xml.escapeAttribute text ++ "\"></item>") := by
  have forest : Render.forest (identified text) root =
      .ok [.element "item" [("id", text)] []] := rfl
  rw [Render.render_eq_spellAll, forest]
  refine congrArg Except.ok (String.toList_injective ?_)
  simp [Xml.spellAll, Xml.Tree.spell, Xml.startTag, Xml.endTag, Xml.spellAttributes,
    Xml.spellAttribute]

end Template

/-- Whatever a text is, written into a format as messages show it or between quotes it is rendered as
the escaped text, and between quotes as the value of an attribute it is rendered as the escaped
value. Nothing of the host data has a part in it. -/
theorem serialize_literal (text : String) (root : Object) :
    serialize ("<doc<item&" ++ (Expr.literal text).spelling ++ ">>") root =
        .ok ("<doc><item>" ++ Xml.escapeText text ++ "</item></doc>") ∧
      serialize ("<doc<item&" ++ Format.quote text ++ ">>") root =
        .ok ("<doc><item>" ++ Xml.escapeText text ++ "</item></doc>") ∧
      serialize ("<item=id" ++ Format.quote text ++ ">") root =
        .ok ("<item id=\"" ++ Xml.escapeAttribute text ++ "\"></item>") := by
  obtain ⟨token, denotes, spelled⟩ := Format.denotes_word text
  have shown := Template.compile_item denotes
  have quoted := Template.compile_item (.quoted text)
  rw [spelled, String.ofList_toList] at shown
  rw [Format.Token.spelled, String.ofList_toList] at quoted
  refine ⟨?_, ?_, ?_⟩
  · rw [Expr.spelling, serialize_of_compile shown, Template.render_item]
    rfl
  · rw [serialize_of_compile quoted, Template.render_item]
    rfl
  · rw [serialize_of_compile (Template.compile_identified text), Template.render_identified]
    rfl

end XmlTemplate
