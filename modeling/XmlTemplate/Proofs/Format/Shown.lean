import XmlTemplate.Proofs.Format.Canonical

/-!
# Expressions as messages show them

Messages show an expression by its spelling. After an ampersand the spelling is a format of one
content, and this content is the expression again, with one exception: a key of digits is spelled
without quotes, so it is read as an index.

Results:
1. `wellShaped_of_mem_expressions`: the expressions of a format are literals and sources.
2. `spelled_tokens`, `value_tokens`: the tokens of a spelling, and the expression that they stand for.
3. `shown_eq_self_iff`: the expressions that stand for themselves.
4. `compile_shown`: what the spelling of an expression of a format compiles to.
5. `compile_shown_digits`: a key of digits is not read back.
-/

namespace XmlTemplate

open Format (Token)

/-! ## The expressions of a template -/

/-- The source of a repetition, if it has one. -/
def Repetition.expressions : Repetition → List Expr
  | .items source => [source]
  | .entries source => [source]
  | .times _ => []

/-- The name and the value of an attribute. -/
def Attribute.expressions (item : Attribute) : List Expr := [item.name, item.value]

/-- The expressions that stand before the children of an element. -/
def Head.expressions (head : Head) : List Expr :=
  head.name :: (head.repetition.toList.flatMap Repetition.expressions ++
    head.attributes.flatMap Attribute.expressions)

namespace Node

mutual
/-- The expressions at every place of a node. -/
def expressions : Node → List Expr
  | .element head children => head.expressions ++ expressionsAll children
  | .text _ => []
  | .value source => [source]
  | .scope source children => source :: expressionsAll children

/-- The expressions at every place of the nodes. -/
def expressionsAll : List Node → List Expr
  | [] => []
  | node :: nodes => node.expressions ++ expressionsAll nodes
end

end Node

/-- The expressions at every place of a template. -/
def Template.expressions (template : Template) : List Expr := Node.expressionsAll template.nodes

variable {expr : Expr}

theorem Repetition.WellShaped.of_mem {repetition : Repetition} (shaped : repetition.WellShaped)
    (member : expr ∈ repetition.expressions) : expr.WellShaped := by
  cases repetition with
  | items source | entries source =>
    obtain rfl := List.mem_singleton.mp member
    exact shaped.wellShaped
  | times count => cases member

theorem Attribute.WellShaped.of_mem {item : Attribute} (shaped : item.WellShaped)
    (member : expr ∈ item.expressions) : expr.WellShaped := by
  have either : expr = item.name ∨ expr = item.value := by simpa [expressions] using member
  rcases either with rfl | rfl
  · exact shaped.name
  · exact shaped.value

theorem Head.WellShaped.of_mem {head : Head} (shaped : head.WellShaped)
    (member : expr ∈ head.expressions) : expr.WellShaped := by
  rcases List.mem_cons.mp member with rfl | member
  · exact shaped.name
  rcases List.mem_append.mp member with member | member
  · obtain ⟨repetition, repeated, member⟩ := List.mem_flatMap.mp member
    exact (shaped.repetition repetition (Option.mem_toList.mp repeated)).of_mem member
  · obtain ⟨item, listed, member⟩ := List.mem_flatMap.mp member
    exact (shaped.attributes item listed).of_mem member

namespace Node

mutual
theorem wellShaped_of_mem {node : Node} (shaped : node.WellShaped)
    (member : expr ∈ node.expressions) : expr.WellShaped := by
  cases node with
  | element head children =>
    rcases List.mem_append.mp member with member | member
    · exact shaped.1.of_mem member
    · exact wellShaped_of_mem_all shaped.2.2 member
  | text text => cases member
  | value source =>
    obtain rfl := List.mem_singleton.mp member
    exact Expr.IsSource.wellShaped shaped
  | scope source children =>
    rcases List.mem_cons.mp member with rfl | member
    · exact shaped.1.wellShaped
    · exact wellShaped_of_mem_all shaped.2 member

theorem wellShaped_of_mem_all {nodes : List Node} (shaped : AllWellShaped nodes)
    (member : expr ∈ expressionsAll nodes) : expr.WellShaped := by
  cases nodes with
  | nil => cases member
  | cons node nodes =>
    rcases List.mem_append.mp member with member | member
    · exact wellShaped_of_mem shaped.1 member
    · exact wellShaped_of_mem_all shaped.2 member
end

end Node

/-- Whatever the format is, its expressions are literals and sources. -/
theorem Template.wellShaped_of_mem_expressions {format : String} {template : Template}
    (compiled : compile format = .ok template) (member : expr ∈ template.expressions) :
    expr.WellShaped :=
  Node.wellShaped_of_mem_all (allWellShaped_of_compile compiled) member

/-! ## Tokens of a spelling -/

/-- The tokens of a spelled segment. -/
def Step.tokens : Step → List Token
  | .key name => [.dot, .ofText name]
  | .index digits => [.dot, .bare digits]

/-- The tokens of a spelled expression. -/
def Expr.tokens : Expr → List Token
  | .literal text => [.ofText text]
  | .current => [.question]
  | .chain base steps => base.tokens ++ steps.flatMap Step.tokens

theorem Step.spelled_tokens (step : Step) :
    step.tokens.flatMap Token.spelled = '.' :: step.spelling.toList := by
  cases step with
  | key name =>
    rw [tokens, List.flatMap_cons, List.flatMap_singleton, Token.spelled_ofText]
    rfl
  | index digits => simp [tokens, spelling, Token.spelled]

theorem Step.spelled_flatMap_tokens (steps : List Step) :
    (steps.flatMap tokens).flatMap Token.spelled = (spellings steps).toList := by
  induction steps with
  | nil => rfl
  | cons step steps ih => simp [spellings, spelled_tokens, ih]

theorem Expr.spelled_tokens (expr : Expr) :
    expr.tokens.flatMap Token.spelled = expr.spelling.toList := by
  induction expr with
  | literal text => simp [tokens, spelling, Token.spelled_ofText]
  | current => rfl
  | chain base steps ih => simp [tokens, spelling, ih, Step.spelled_flatMap_tokens]

/-! ## Reading a spelling -/

/-- The segment that the spelling of a segment is read as. -/
def Step.shown : Step → Step
  | .key name => Format.stepOfBare name
  | .index digits => .index digits

/-- The expression that the spelling of an expression is read as. -/
def Expr.shown : Expr → Expr
  | .literal text => .literal text
  | .current => .current
  | .chain base steps => .chain base.shown (steps.map Step.shown)

/-- The segments of an expression. -/
def Expr.steps : Expr → List Step
  | .literal _ => []
  | .current => []
  | .chain base steps => base.steps ++ steps

/-- A key that is a run of digits looks like an index without its quotes. -/
def Step.IsDigitKey : Step → Prop
  | .key name => Format.isDigits name = true
  | .index _ => False

theorem Step.shown_eq_self_iff (step : Step) : step.shown = step ↔ ¬ step.IsDigitKey := by
  cases step with
  | key name =>
    rw [shown, Format.stepOfBare, IsDigitKey]
    split <;> simp_all
  | index digits => simp [shown, IsDigitKey]

/-- An expression is read from its spelling if and only if no key of it is a run of digits. -/
theorem Expr.shown_eq_self_iff (expr : Expr) :
    expr.shown = expr ↔ ∀ step ∈ expr.steps, ¬ step.IsDigitKey := by
  induction expr with
  | literal text => simp [shown, steps]
  | current => simp [shown, steps]
  | chain base steps ih =>
    have same : steps.map Step.shown = steps ↔ ∀ step ∈ steps, step.shown = step := by
      simpa using List.map_inj_left (l := steps) (f := Step.shown) (g := id)
    simp only [shown, Expr.steps, chain.injEq, List.forall_mem_append, ih, same,
      Step.shown_eq_self_iff]

theorem Expr.shown_ofSteps (steps : List Step) :
    (ofSteps steps).shown = ofSteps (steps.map Step.shown) := by
  cases steps <;> rfl

namespace Format

open Grammar

variable {rest : List Token}

theorem segment_tokens {step : Step} (shaped : step.WellShaped) (rest : List Token) :
    Segment (step.tokens ++ rest) step.shown rest := by
  cases step with
  | index digits => exact .index rest shaped
  | key name =>
    rw [Step.tokens, Step.shown, Token.ofText]
    cases bare : isBareWord name with
    | true => exact segment_stepOfBare name rest
    | false =>
      -- a name in quotes is no run of digits, since digits are bare
      have noDigits : isDigits name = false := by
        cases digits : isDigits name with
        | false => rfl
        | true => exact absurd (isBareWord_of_isDigits digits) (by simp [bare])
      simpa [stepOfBare, noDigits] using Segment.quoted name rest

theorem source_tokens {source : Expr} (shaped : source.IsSource) (ends : rest.head? ≠ some .dot) :
    Source true (source.tokens ++ rest) source.shown rest := by
  cases source with
  | literal text => exact shaped.elim
  | current => exact .question (.nil fun _ => not_segment_of_not_dot ends)
  | chain base steps =>
    obtain ⟨rfl, present, shaped⟩ := shaped
    cases steps with
    | nil => exact absurd rfl present
    | cons step steps =>
      exact .question (segments_flatMap (fun step member => segment_tokens (shaped step member)) ends)

theorem value_tokens {expr : Expr} (shaped : expr.WellShaped) (ends : rest.head? ≠ some .dot) :
    Value true (expr.tokens ++ rest) expr.shown rest := by
  cases expr with
  | literal text =>
    rw [Expr.tokens, Token.ofText]
    split
    · exact .bare text rest
    · exact .quoted text rest
  | current => exact .source (source_tokens trivial ends)
  | chain base steps => exact .source (source_tokens shaped ends)

theorem apart_step_tokens {step : Step} (shaped : step.WellShaped) : Apart step.tokens := by
  cases step with
  | key name => exact .denotes (by simp) (Token.denotes_ofText name)
  | index digits => exact .digits (by simp) shaped

/-- A spelling can be written after an ampersand. -/
theorem apart_ampersand_tokens {expr : Expr} (shaped : expr.WellShaped) :
    Apart (.ampersand :: expr.tokens) := by
  cases expr with
  | literal text => exact .denotes (by simp) (Token.denotes_ofText text)
  | current => exact .of_forall_ne_bare (by simp [Expr.tokens])
  | chain base steps =>
    obtain ⟨rfl, -, shaped⟩ := shaped
    have signs : Apart [.ampersand, .question] := .of_forall_ne_bare (by simp)
    exact signs.append (.flatMap fun step member => apart_step_tokens (shaped step member))

theorem nodeOfExpr_inj {expr other : Expr} : nodeOfExpr expr = nodeOfExpr other ↔ expr = other := by
  constructor
  · intro same
    cases expr <;> cases other <;> cases same <;> rfl
  · exact congrArg nodeOfExpr

theorem nodeOfExpr_ofSteps (steps : List Step) :
    nodeOfExpr (.ofSteps steps) = .value (.ofSteps steps) := by
  cases steps <;> rfl

theorem depth_nodeOfExpr (expr : Expr) : (nodeOfExpr expr).depth = 0 := by
  cases expr <;> rfl

end Format

/-! ## Formats of one content -/

namespace Template

open Format

theorem compile_ampersand_spelling (shaped : expr.WellShaped) :
    compile ("&" ++ expr.spelling) = .ok ⟨[nodeOfExpr expr.shown]⟩ := by
  have spelled : "&" ++ expr.spelling =
      String.ofList ((.ampersand :: expr.tokens).flatMap Token.spelled) := by
    apply String.toList_injective
    simp [Expr.spelled_tokens, Token.spelled]
  have stops : ([] : List Token).head? ≠ some .dot := by simp
  have value := value_tokens shaped stops
  rw [List.append_nil] at value
  have phrases : Grammar.Document true (.ampersand :: expr.tokens) [nodeOfExpr expr.shown] :=
    .cons (.content value.content) (.nil [])
  have shallow : Node.depthAll [nodeOfExpr expr.shown] ≤ maxDepth := by
    simp [Node.depthAll, depth_nodeOfExpr]
  rw [spelled]
  exact compile_spelled (apart_ampersand_tokens shaped).spellable phrases shallow

/-- The spelling of an expression of a format is, after an ampersand, a format of one content. The
content is the one that the expression itself stands for, unless a key in it is a run of digits: such a
key is read as an index, and nothing else changes. -/
theorem compile_shown {format : String} {template : Template}
    (compiled : compile format = .ok template) (member : expr ∈ template.expressions) :
    compile ("&" ++ expr.spelling) = .ok ⟨[nodeOfExpr expr.shown]⟩ ∧
      (compile ("&" ++ expr.spelling) = .ok ⟨[nodeOfExpr expr]⟩ ↔
        ∀ step ∈ expr.steps, ¬ step.IsDigitKey) := by
  have read := compile_ampersand_spelling (wellShaped_of_mem_expressions compiled member)
  refine ⟨read, ?_⟩
  rw [read, ← Expr.shown_eq_self_iff]
  simp [nodeOfExpr_inj]

/-- An attribute whose name is a word and whose value has a key in quotes, a key of digits and an index.
The name is read back, and in the value the key of digits becomes an index. -/
theorem compile_shown_of_attribute :
    let name : Expr := .literal "b"
    let value : Expr := .chain .current [.key "c d", .key "1", .index "02"]
    let template : Template := ⟨[.element ⟨.literal "a", none, [⟨name, value⟩]⟩ []]⟩
    compile "<a=b.\"c d\".\"1\".02>" = .ok template ∧
      name ∈ template.expressions ∧ value ∈ template.expressions ∧
      compile ("&" ++ name.spelling) = .ok ⟨[.text "b"]⟩ ∧
      value.spelling = "?.\"c d\".1.02" ∧
      compile ("&" ++ value.spelling) =
        .ok ⟨[.value (.chain .current [.key "c d", .index "1", .index "02"])]⟩ ∧
      compile ("&" ++ value.spelling) ≠ .ok ⟨[.value value]⟩ := by
  intro name value template
  have compiled : compile "<a=b.\"c d\".\"1\".02>" = .ok template := by rfl
  have nameMember : name ∈ template.expressions := by decide
  have valueMember : value ∈ template.expressions := by decide
  have digits : ¬ ∀ step ∈ value.steps, ¬ step.IsDigitKey := fun plain =>
    plain (.key "1") (by decide) (by rfl)
  have nameShown := compile_shown compiled nameMember
  have valueShown := compile_shown compiled valueMember
  exact ⟨compiled, nameMember, valueMember, nameShown.1, by rfl, valueShown.1,
    mt valueShown.2.mp digits⟩

/-- A key of digits is not read back: its spelling has no quotes, so it compiles to an index. -/
theorem compile_shown_digits :
    let source : Expr := .chain .current [.key "0"]
    compile "&.\"0\"" = .ok ⟨[.value source]⟩ ∧
      source ∈ Template.expressions ⟨[.value source]⟩ ∧
      source.spelling = "?.0" ∧
      compile ("&" ++ source.spelling) = .ok ⟨[.value (.chain .current [.index "0"])]⟩ ∧
      compile ("&" ++ source.spelling) ≠ .ok ⟨[nodeOfExpr source]⟩ := by
  intro source
  have shaped : source.WellShaped := ⟨rfl, by simp, List.forall_mem_singleton.mpr trivial⟩
  have read := compile_ampersand_spelling shaped
  refine ⟨by rfl, by decide, by rfl, read, ?_⟩
  rw [read]
  simp [nodeOfExpr_inj, source, Expr.shown, Step.shown, stepOfBare, isDigits, Decimal.isDigit]

end Template

end XmlTemplate
