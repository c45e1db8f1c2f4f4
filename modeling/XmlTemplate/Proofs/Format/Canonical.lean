import XmlTemplate.Proofs.Decimal.Integer
import XmlTemplate.Proofs.Format.Shape
import XmlTemplate.Proofs.Format.Spelling

/-!
# The canonical format of a template

The notation can spell every template of its shape. The canonical format puts each literal, text and
key into quotes, writes the sign for the object in scope before each run of segments, and gives every
attribute its value. Its tokens are a phrase of the grammar, and no two bare words meet in it.

Results:
1. `anyNode_phrase`, `many_phraseAll`: the tokens of nodes are phrases for them.
2. `apart_phrase`, `apart_phraseAll`: the tokens of nodes can be written after any token.
3. `compile_spelled`: tokens that are a phrase for nodes spell a format of these nodes.
4. `compile_canonical`: the canonical format of a template compiles to it.
-/

namespace XmlTemplate

open Format (Token)

/-! ## Phrases -/

/-- A segment as tokens: keys stand in quotes, and digits stand alone. -/
def Step.phrase : Step → List Token
  | .key name => [.dot, .quoted name]
  | .index digits => [.dot, .bare digits]

/-- An expression as tokens. -/
def Expr.phrase : Expr → List Token
  | .literal text => [.quoted text]
  | .current => [.question]
  | .chain base steps => base.phrase ++ steps.flatMap Step.phrase

/-- A name and its repetition as tokens. The name of entries is not written. -/
def Expr.tagPhrase (name : Expr) : Option Repetition → List Token
  | none => name.phrase
  | some (.items source) => name.phrase ++ .star :: source.phrase
  | some (.entries source) => .tilde :: source.phrase
  | some (.times count) => name.phrase ++ [.star, .bare (toString count)]

/-- An attribute as tokens, always with its value. -/
def Attribute.phrase (item : Attribute) : List Token :=
  .equals :: (item.name.phrase ++ item.value.phrase)

/-- What stands before the children of an element, as tokens. -/
def Head.phrase (head : Head) : List Token :=
  head.name.tagPhrase head.repetition ++ head.attributes.flatMap Attribute.phrase

namespace Node

mutual
/-- A node as tokens. -/
def phrase : Node → List Token
  | .element head children => .less :: (head.phrase ++ (phraseAll children ++ [.greater]))
  | .text words => [.ampersand, .quoted words]
  | .value source => .ampersand :: source.phrase
  | .scope source children => .openBrace :: (source.phrase ++ (phraseAll children ++ [.closeBrace]))

/-- Nodes as tokens, one after another. -/
def phraseAll : List Node → List Token
  | [] => []
  | node :: nodes => node.phrase ++ phraseAll nodes
end

end Node

/-- The canonical format of a template. -/
def Template.canonical (template : Template) : String :=
  String.ofList ((Node.phraseAll template.nodes).flatMap Token.spelled)

namespace Format

open Grammar

/-! ## Digits -/

theorem isBare_of_isDigit {c : Char} (digit : Decimal.isDigit c = true) : isBare c = true := by
  have range : 48 ≤ c.toNat ∧ c.toNat ≤ 57 := by
    simpa [Decimal.isDigit, Char.le_def, UInt32.le_iff_toNat_le] using digit
  have notBlank : Text.isBlank c = false := by
    simp only [Text.isBlank, Text.blanks, Text.Ranges.contains, List.any_cons, List.any_nil]
    simp
    omega
  have noSign : reserved.all (fun sign => !Decimal.isDigit sign) = true := by decide
  cases sign : isReserved c with
  | false => simp [isBare, notBlank, sign]
  | true =>
    have outside := List.all_eq_true.mp noSign c (by simpa [isReserved] using sign)
    simp [digit] at outside

theorem isBareWord_of_isDigits {word : String} (digits : isDigits word = true) :
    isBareWord word = true := by
  rw [isDigits, Bool.and_eq_true, List.all_eq_true] at digits
  rw [isBareWord, Bool.and_eq_true, List.all_eq_true]
  exact ⟨digits.1, fun c member => isBare_of_isDigit (digits.2 c member)⟩

theorem isDigits_toString (count : Nat) : isDigits (toString count) = true := by
  have digits : ∀ c ∈ (toString count).toList, Decimal.isDigit c = true := by
    rw [Decimal.toList_toString_nat]
    exact fun c member => Decimal.isDigit_of_mem_toDigits member
  have present : toString count ≠ "" := Nat.repr_ne_empty
  simpa [isDigits, present] using digits

theorem ofDigits_toString (count : Nat) : Decimal.ofDigits (toString count).toList = count := by
  rw [Decimal.toList_toString_nat, Decimal.ofDigits_toDigits]

/-! ## Derivations -/

variable {rest : List Token}

/-- Segments one after another, each written in a way that is read as some segment. -/
theorem segments_flatMap {phrase : Step → List Token} {meaning : Step → Step} {steps : List Step}
    (each : ∀ step ∈ steps, ∀ rest, Segment (phrase step ++ rest) (meaning step) rest)
    (ends : rest.head? ≠ some .dot) :
    Segments true (steps.flatMap phrase ++ rest) (steps.map meaning) rest := by
  induction steps with
  | nil => exact .nil fun _ => not_segment_of_not_dot ends
  | cons step steps ih =>
    obtain ⟨first, others⟩ := List.forall_mem_cons.mp each
    rw [List.flatMap_cons, List.append_assoc]
    exact .cons (first _) (ih others)

theorem segment_phrase {step : Step} (shaped : step.WellShaped) (rest : List Token) :
    Segment (step.phrase ++ rest) step rest := by
  cases step with
  | key name => exact .quoted name rest
  | index digits => exact .index rest shaped

theorem segments_phrase {steps : List Step} (shaped : ∀ step ∈ steps, step.WellShaped)
    (ends : rest.head? ≠ some .dot) :
    Segments true (steps.flatMap Step.phrase ++ rest) steps rest := by
  have run := segments_flatMap (fun step member => segment_phrase (shaped step member)) ends
  rwa [List.map_id'] at run

theorem source_phrase {source : Expr} (shaped : source.IsSource) (ends : rest.head? ≠ some .dot) :
    Source true (source.phrase ++ rest) source rest := by
  cases source with
  | literal text => exact shaped.elim
  | current => exact .question (.nil fun _ => not_segment_of_not_dot ends)
  | chain base steps =>
    obtain ⟨rfl, present, shaped⟩ := shaped
    cases steps with
    | nil => exact absurd rfl present
    | cons step steps => exact .question (segments_phrase shaped ends)

theorem value_phrase {expr : Expr} (shaped : expr.WellShaped) (ends : rest.head? ≠ some .dot) :
    Value true (expr.phrase ++ rest) expr rest := by
  cases expr with
  | literal text => exact .quoted text rest
  | current => exact .source (source_phrase trivial ends)
  | chain base steps => exact .source (source_phrase shaped ends)

/-- An expression starts with a question mark or a text in quotes. -/
theorem phrase_starts (expr : Expr) :
    ∃ first more, expr.phrase = first :: more ∧
      (first = .question ∨ ∃ text, first = .quoted text) := by
  induction expr with
  | literal text => exact ⟨_, [], rfl, .inr ⟨text, rfl⟩⟩
  | current => exact ⟨_, [], rfl, .inl rfl⟩
  | chain base steps ih =>
    obtain ⟨first, more, shape, starts⟩ := ih
    exact ⟨first, _, by rw [Expr.phrase, shape]; rfl, starts⟩

theorem phrase_not_dot (expr : Expr) (rest : List Token) :
    (expr.phrase ++ rest).head? ≠ some .dot := by
  obtain ⟨first, more, shape, rfl | ⟨text, rfl⟩⟩ := phrase_starts expr <;> simp [shape]

theorem pairing_phrase {item : Attribute} (shaped : item.WellShaped)
    (ends : rest.head? ≠ some .dot) : Pairing true (item.phrase ++ rest) item rest := by
  rw [Attribute.phrase, List.cons_append, List.append_assoc]
  exact .both (value_phrase shaped.name (phrase_not_dot item.value rest))
    (value_phrase shaped.value ends)

theorem attributes_not_dot (items : List Attribute) (ends : rest.head? ≠ some .dot) :
    (items.flatMap Attribute.phrase ++ rest).head? ≠ some .dot := by
  cases items with
  | nil => exact ends
  | cons item items => simp [Attribute.phrase]

theorem attributes_phrase {items : List Attribute} (shaped : ∀ item ∈ items, item.WellShaped)
    (ends : rest.head? ≠ some .dot) :
    Many (Pairing true) (items.flatMap Attribute.phrase ++ rest) items rest := by
  induction items with
  | nil => exact .nil rest
  | cons item items ih =>
    obtain ⟨first, others⟩ := List.forall_mem_cons.mp shaped
    rw [List.flatMap_cons, List.append_assoc]
    exact .cons (pairing_phrase first (attributes_not_dot items ends)) (ih others)

theorem tag_phrase {head : Head} (shaped : head.WellShaped) (ends : rest.head? ≠ some .dot) :
    Tag true (head.name.tagPhrase head.repetition ++ rest) (head.name, head.repetition) rest := by
  have sourced := shaped.repetition
  have keyed := shaped.entries
  cases repeated : head.repetition with
  | none => exact .once (value_phrase shaped.name ends)
  | some repetition =>
    have source := sourced repetition repeated
    cases repetition with
    | items items =>
      rw [Expr.tagPhrase, List.append_assoc]
      exact .repeated (value_phrase shaped.name (by simp)) (.items (source_phrase source ends))
    | entries entries =>
      rw [keyed entries repeated]
      exact .entries (source_phrase source ends)
    | times count =>
      have number : Repeats true (.bare (toString count) :: rest)
          (.times (Decimal.ofDigits (toString count).toList)) rest :=
        .count rest (isDigits_toString count) (by rw [ofDigits_toString]; exact source)
      rw [ofDigits_toString] at number
      rw [Expr.tagPhrase, List.append_assoc]
      exact .repeated (value_phrase shaped.name (by simp)) number

/-! ### Nodes -/

theorem Grammar.AnyNode.content_of_isContent {longest : Bool} {tokens : List Token} {node : Node}
    (phrase : AnyNode longest tokens node rest) (content : node.IsContent) :
    ∃ inner, tokens = .ampersand :: inner ∧ Content longest inner node rest := by
  cases phrase with
  | nested phrase => cases phrase <;> cases content
  | content phrase => exact ⟨_, rfl, phrase⟩

theorem Grammar.AnyNode.nested_of_isNested {longest : Bool} {tokens : List Token} {node : Node}
    (phrase : AnyNode longest tokens node rest) (nested : node.IsNested) :
    Nested longest tokens node rest := by
  cases phrase with
  | nested phrase => exact phrase
  | content phrase => cases phrase <;> cases nested

theorem phraseAll_not_dot (nodes : List Node) (ends : rest.head? ≠ some .dot) :
    (Node.phraseAll nodes ++ rest).head? ≠ some .dot := by
  cases nodes with
  | nil => exact ends
  | cons node nodes => cases node <;> simp [Node.phraseAll, Node.phrase]

mutual
theorem anyNode_phrase {node : Node} (shaped : node.WellShaped) {rest : List Token}
    (ends : rest.head? ≠ some .dot) : AnyNode true (node.phrase ++ rest) node rest := by
  cases node with
  | element head children =>
    obtain ⟨front, body, inner⟩ := shaped
    have stops : (Token.greater :: rest).head? ≠ some .dot := by simp
    have phrases := many_phraseAll inner stops
    have afterAttributes := phraseAll_not_dot children stops
    have attributes := attributes_phrase front.attributes afterAttributes
    have tag := tag_phrase front (attributes_not_dot head.attributes afterAttributes)
    have shape : (Node.element head children).phrase ++ rest =
        .less :: (head.name.tagPhrase head.repetition ++
          (head.attributes.flatMap Attribute.phrase ++
            (Node.phraseAll children ++ .greater :: rest))) := by
      simp [Node.phrase, Head.phrase]
    rw [shape]
    rcases body with ⟨only, rfl, content⟩ | nested
    · -- the sign in front of a single content belongs to the element
      rcases phrases with _ | ⟨first, ⟨⟩⟩
      obtain ⟨inside, shape, child⟩ := first.content_of_isContent content
      rw [shape] at tag attributes ⊢
      exact .nested (.content tag attributes child)
    · refine .nested (.children tag attributes ?_)
      exact (many_and_iff.mpr ⟨phrases, nested⟩).imp fun _ _ _ both =>
        both.1.nested_of_isNested both.2
  | text text => exact .content (.quoted text rest)
  | value source => exact .content (.source (source_phrase shaped ends))
  | scope source children =>
    obtain ⟨sourced, inner⟩ := shaped
    have stops : (Token.closeBrace :: rest).head? ≠ some .dot := by simp
    have phrases := many_phraseAll inner stops
    have start := source_phrase sourced (phraseAll_not_dot children stops)
    have shape : (Node.scope source children).phrase ++ rest =
        .openBrace :: (source.phrase ++ (Node.phraseAll children ++ .closeBrace :: rest)) := by
      simp [Node.phrase]
    rw [shape]
    exact .nested (.scope start phrases)

theorem many_phraseAll {nodes : List Node} (shaped : Node.AllWellShaped nodes) {rest : List Token}
    (ends : rest.head? ≠ some .dot) :
    Many (AnyNode true) (Node.phraseAll nodes ++ rest) nodes rest := by
  cases nodes with
  | nil => exact .nil rest
  | cons node nodes =>
    obtain ⟨first, others⟩ := shaped
    rw [Node.phraseAll, List.append_assoc]
    exact .cons (anyNode_phrase first (phraseAll_not_dot nodes ends)) (many_phraseAll others ends)
end

/-! ## Spelling -/

/-- Tokens that can be written after any token: they do not start with a bare word. -/
structure Apart (sequence : List Token) : Prop where
  spellable : Spellable sequence
  starts : ∀ word, sequence.head? ≠ some (.bare word)

namespace Apart

variable {α : Type} {front back : List Token}

theorem nil : Apart [] := ⟨trivial, by simp⟩

theorem of_forall_ne_bare (other : ∀ token ∈ front, ∀ word, token ≠ .bare word) : Apart front :=
  ⟨spellable_of_forall_ne_bare other, fun word starts =>
    other _ (List.mem_of_mem_head? starts) word rfl⟩

theorem append (first : Apart front) (second : Apart back) : Apart (front ++ back) := by
  refine ⟨spellable_append first.spellable second.spellable second.starts, ?_⟩
  cases front with
  | nil => exact second.starts
  | cons token front => exact first.starts

theorem flatMap {phrase : α → List Token} {items : List α}
    (each : ∀ item ∈ items, Apart (phrase item)) : Apart (items.flatMap phrase) := by
  induction items with
  | nil => exact nil
  | cons item items ih =>
    obtain ⟨first, others⟩ := List.forall_mem_cons.mp each
    rw [List.flatMap_cons]
    exact first.append (ih others)

/-- A text stands after a sign, as a bare word or in quotes. -/
theorem denotes {sign token : Token} {text : String} (other : ∀ word, sign ≠ .bare word)
    (denotes : token.Denotes text) : Apart [sign, token] := by
  have alone : Spellable [token] := spellable_between denotes (by simp) trivial
  refine ⟨?_, by simpa using other⟩
  cases sign with
  | bare word => exact absurd rfl (other word)
  | _ => exact alone

/-- Digits stand after a sign. -/
theorem digits {sign : Token} {word : String} (other : ∀ word, sign ≠ .bare word)
    (digits : isDigits word = true) : Apart [sign, .bare word] :=
  .denotes other (.bare (isBareWord_of_isDigits digits))

end Apart

theorem apart_step {step : Step} (shaped : step.WellShaped) : Apart step.phrase := by
  cases step with
  | key name => exact .of_forall_ne_bare (by simp [Step.phrase])
  | index digits => exact .digits (by simp) shaped

theorem apart_source {source : Expr} (shaped : source.IsSource) : Apart source.phrase := by
  cases source with
  | literal text => exact shaped.elim
  | current => exact .of_forall_ne_bare (by simp [Expr.phrase])
  | chain base steps =>
    obtain ⟨rfl, -, shaped⟩ := shaped
    have sign : Apart Expr.current.phrase := .of_forall_ne_bare (by simp [Expr.phrase])
    exact sign.append (.flatMap fun step member => apart_step (shaped step member))

theorem apart_value {expr : Expr} (shaped : expr.WellShaped) : Apart expr.phrase := by
  cases expr with
  | literal text => exact .of_forall_ne_bare (by simp [Expr.phrase])
  | current => exact apart_source trivial
  | chain base steps => exact apart_source shaped

theorem Apart.sign {token : Token} (other : ∀ word, token ≠ .bare word) : Apart [token] :=
  .of_forall_ne_bare (by simpa using other)

theorem apart_attribute {item : Attribute} (shaped : item.WellShaped) : Apart item.phrase :=
  (Apart.sign (by simp)).append ((apart_value shaped.name).append (apart_value shaped.value))

theorem apart_tag {head : Head} (shaped : head.WellShaped) :
    Apart (head.name.tagPhrase head.repetition) := by
  have name := apart_value shaped.name
  have sourced := shaped.repetition
  cases repeated : head.repetition with
  | none => exact name
  | some repetition =>
    have source := sourced repetition repeated
    cases repetition with
    | items items => exact name.append ((Apart.sign (by simp)).append (apart_source source))
    | entries entries => exact (Apart.sign (by simp)).append (apart_source source)
    | times count => exact name.append (.digits (by simp) (isDigits_toString count))

theorem apart_head {head : Head} (shaped : head.WellShaped) : Apart head.phrase :=
  (apart_tag shaped).append
    (.flatMap fun item member => apart_attribute (shaped.attributes item member))

mutual
theorem apart_phrase {node : Node} (shaped : node.WellShaped) : Apart node.phrase := by
  cases node with
  | element head children =>
    obtain ⟨front, -, inner⟩ := shaped
    exact (Apart.sign (by simp)).append ((apart_head front).append
      ((apart_phraseAll inner).append (.sign (by simp))))
  | text text => exact .of_forall_ne_bare (by simp [Node.phrase])
  | value source => exact (Apart.sign (by simp)).append (apart_source shaped)
  | scope source children =>
    exact (Apart.sign (by simp)).append ((apart_source shaped.1).append
      ((apart_phraseAll shaped.2).append (.sign (by simp))))

theorem apart_phraseAll {nodes : List Node} (shaped : Node.AllWellShaped nodes) :
    Apart (Node.phraseAll nodes) := by
  cases nodes with
  | nil => exact .nil
  | cons node nodes => exact (apart_phrase shaped.1).append (apart_phraseAll shaped.2)
end

end Format

/-! ## Templates -/

namespace Template

/-- Tokens that can be written one after another and are a phrase for nodes spell a format of them. -/
theorem compile_spelled {sequence : List Token} {nodes : List Node}
    (spellable : Format.Spellable sequence) (phrases : Format.Grammar.Document true sequence nodes)
    (shallow : Node.depthAll nodes ≤ Format.maxDepth) :
    compile (String.ofList (sequence.flatMap Token.spelled)) = .ok ⟨nodes⟩ := by
  obtain ⟨stream, scanned, rfl⟩ := Format.scan_spelled spellable 0
  refine compile_eq_ok_iff_document.mpr ⟨stream, ?_, phrases, shallow⟩
  rw [String.toList_ofList]
  exact scanned

/-- The canonical format of a template compiles to the template, whatever texts stand in it. -/
theorem compile_canonical {template : Template} (shaped : template.WellShaped) :
    compile template.canonical = .ok template := by
  have spellable := (Format.apart_phraseAll shaped.nodes).spellable
  have stops : ([] : List Token).head? ≠ some .dot := by simp
  have whole := Format.many_phraseAll shaped.nodes stops
  rw [List.append_nil] at whole
  exact compile_spelled spellable whole shaped.depth

/-- Texts with every character that has an escape, an expression right after another one, and digits
as an index and as a key. -/
theorem compile_canonical_escapes :
    let template : Template :=
      ⟨[.element ⟨.literal "a \"\\", some (.times 30),
          [⟨.current, .chain .current [.index "07", .key "07"]⟩]⟩ [.text "\t\n"]]⟩
    template.canonical = "<\"a \\\"\\\\\"*30=??.07.\"07\"&\"\\t\\n\">" ∧
      template.WellShaped ∧ compile template.canonical = .ok template := by
  intro template
  have shaped : template.WellShaped := by
    refine ⟨⟨⟨⟨trivial, ?_, nofun, ?_⟩, .inl ⟨_, rfl, trivial⟩, trivial, trivial⟩, trivial⟩,
      by decide⟩
    · rintro repetition ⟨⟩
      show 30 < Decimal.wordBound
      decide
    · intro item member
      obtain rfl := List.mem_singleton.mp member
      have index : (Step.index "07").WellShaped := by rfl
      have segments : ∀ step ∈ [Step.index "07", .key "07"], step.WellShaped :=
        List.forall_mem_cons.mpr ⟨index, List.forall_mem_singleton.mpr trivial⟩
      exact ⟨trivial, rfl, by simp, segments⟩
  exact ⟨by rfl, shaped, compile_canonical shaped⟩

end Template

end XmlTemplate
