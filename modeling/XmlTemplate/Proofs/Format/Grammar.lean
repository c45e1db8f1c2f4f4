import XmlTemplate.Format.Read

/-!
# The grammar of formats

The grammar says which sequences of tokens stand for which nodes, without a word about reading them:

    document   := node*
    node       := nested | '&' value
    nested     := '<' tag attribute* ('&' value | nested*) '>' | '{' source node* '}'
    tag        := '~' source | value ['*' (count | source)]
    attribute  := '=' value [value]
    value      := source | bare | quoted
    source     := '?' segment* | segment+
    segment    := '.' (bare | quoted)

A relation `P tokens x rest` says that `tokens` start with a phrase for `x` and go on with `rest`. The
grammar is ambiguous: the segments after a name in an attribute may as well be its value. With
`longest` a run of segments goes on as long as there are segments.

Results:
1. `Many.length_le`, `Nested.length_lt`, `AnyNode.length_lt`: a phrase takes tokens.
2. `Source.starts`, `Value.starts`, `AnyNode.starts`: how a phrase starts.
3. `Source.maximal`, `Source.append`: a longest run is not followed by a segment, any other one may be
   prolonged by the segments after it.
-/

namespace XmlTemplate.Format

namespace Grammar

/-- Phrases one after another. -/
inductive Many {α : Type} (item : List Token → α → List Token → Prop) :
    List Token → List α → List Token → Prop
  | nil (rest : List Token) : Many item rest [] rest
  | cons {tokens middle rest : List Token} {x : α} {xs : List α} :
      item tokens x middle → Many item middle xs rest → Many item tokens (x :: xs) rest

/-! ## Values -/

/-- A dot with a name; a word of digits is an index. -/
inductive Segment : List Token → Step → List Token → Prop
  | index {word : String} (rest : List Token) :
      isDigits word = true → Segment (.dot :: .bare word :: rest) (.index word) rest
  | key {word : String} (rest : List Token) :
      isDigits word = false → Segment (.dot :: .bare word :: rest) (.key word) rest
  | quoted (text : String) (rest : List Token) :
      Segment (.dot :: .quoted text :: rest) (.key text) rest

/-- A run of segments, with `longest` as long as possible. -/
inductive Segments (longest : Bool) : List Token → List Step → List Token → Prop
  | nil {rest : List Token} :
      (longest = true → ¬ ∃ step after, Segment rest step after) → Segments longest rest [] rest
  | cons {tokens middle rest : List Token} {step : Step} {steps : List Step} :
      Segment tokens step middle → Segments longest middle steps rest →
      Segments longest tokens (step :: steps) rest

/-- An expression that reads the object in scope. -/
inductive Source (longest : Bool) : List Token → Expr → List Token → Prop
  | question {tokens rest : List Token} {steps : List Step} :
      Segments longest tokens steps rest →
      Source longest (.question :: tokens) (.ofSteps steps) rest
  | segments {tokens middle rest : List Token} {step : Step} {steps : List Step} :
      Segment tokens step middle → Segments longest middle steps rest →
      Source longest tokens (.ofSteps (step :: steps)) rest

/-- An expression. -/
inductive Value (longest : Bool) : List Token → Expr → List Token → Prop
  | source {tokens rest : List Token} {expr : Expr} :
      Source longest tokens expr rest → Value longest tokens expr rest
  | bare (word : String) (rest : List Token) :
      Value longest (.bare word :: rest) (.literal word) rest
  | quoted (text : String) (rest : List Token) :
      Value longest (.quoted text :: rest) (.literal text) rest

/-! ## Parts of an element -/

/-- What follows a star. -/
inductive Repeats (longest : Bool) : List Token → Repetition → List Token → Prop
  | count {word : String} (rest : List Token) :
      isDigits word = true → Decimal.ofDigits word.toList < Decimal.wordBound →
      Repeats longest (.bare word :: rest) (.times (Decimal.ofDigits word.toList)) rest
  | items {tokens rest : List Token} {source : Expr} :
      Source longest tokens source rest → Repeats longest tokens (.items source) rest

/-- The name of an element with its repetition. -/
inductive Tag (longest : Bool) : List Token → Expr × Option Repetition → List Token → Prop
  | entries {tokens rest : List Token} {source : Expr} :
      Source longest tokens source rest →
      Tag longest (.tilde :: tokens) (.current, some (.entries source)) rest
  | once {tokens rest : List Token} {name : Expr} :
      Value longest tokens name rest → Tag longest tokens (name, none) rest
  | repeated {tokens middle rest : List Token} {name : Expr} {repetition : Repetition} :
      Value longest tokens name (.star :: middle) → Repeats longest middle repetition rest →
      Tag longest tokens (name, some repetition) rest

/-- An attribute. A value that is missing is the object in scope. -/
inductive Pairing (longest : Bool) : List Token → Attribute → List Token → Prop
  | both {tokens middle rest : List Token} {name value : Expr} :
      Value longest tokens name middle → Value longest middle value rest →
      Pairing longest (.equals :: tokens) ⟨name, value⟩ rest
  | nameOnly {tokens rest : List Token} {name : Expr} :
      Value longest tokens name rest →
      Pairing longest (.equals :: tokens) ⟨name, .current⟩ rest

/-- What follows an ampersand. -/
inductive Content (longest : Bool) : List Token → Node → List Token → Prop
  | bare (word : String) (rest : List Token) :
      Content longest (.bare word :: rest) (.text word) rest
  | quoted (text : String) (rest : List Token) :
      Content longest (.quoted text :: rest) (.text text) rest
  | source {tokens rest : List Token} {expr : Expr} :
      Source longest tokens expr rest → Content longest tokens (.value expr) rest

/-! ## Nodes -/

mutual
/-- An element or a scope. -/
inductive Nested (longest : Bool) : List Token → Node → List Token → Prop
  | content {tokens afterTag afterAttributes rest : List Token} {name : Expr}
      {repetition : Option Repetition} {attributes : List Attribute} {child : Node} :
      Tag longest tokens (name, repetition) afterTag →
      Many (Pairing longest) afterTag attributes (.ampersand :: afterAttributes) →
      Content longest afterAttributes child (.greater :: rest) →
      Nested longest (.less :: tokens) (.element ⟨name, repetition, attributes⟩ [child]) rest
  | children {tokens afterTag afterAttributes rest : List Token} {name : Expr}
      {repetition : Option Repetition} {attributes : List Attribute} {children : List Node} :
      Tag longest tokens (name, repetition) afterTag →
      Many (Pairing longest) afterTag attributes afterAttributes →
      Many (Nested longest) afterAttributes children (.greater :: rest) →
      Nested longest (.less :: tokens) (.element ⟨name, repetition, attributes⟩ children) rest
  | scope {tokens afterSource rest : List Token} {source : Expr} {children : List Node} :
      Source longest tokens source afterSource →
      Many (AnyNode longest) afterSource children (.closeBrace :: rest) →
      Nested longest (.openBrace :: tokens) (.scope source children) rest

/-- An element, a scope or a content. -/
inductive AnyNode (longest : Bool) : List Token → Node → List Token → Prop
  | nested {tokens rest : List Token} {node : Node} :
      Nested longest tokens node rest → AnyNode longest tokens node rest
  | content {tokens rest : List Token} {node : Node} :
      Content longest tokens node rest → AnyNode longest (.ampersand :: tokens) node rest
end

/-- A whole format. -/
def Document (longest : Bool) (tokens : List Token) (nodes : List Node) : Prop :=
  Many (AnyNode longest) tokens nodes []

/-! ## Lengths -/

variable {longest : Bool} {tokens rest : List Token}

theorem Many.length_le {α : Type} {item : List Token → α → List Token → Prop} {xs : List α}
    (many : Many item tokens xs rest)
    (each : ∀ tokens x rest, item tokens x rest → rest.length < tokens.length) :
    xs.length + rest.length ≤ tokens.length := by
  induction many with
  | nil rest => simp
  | cons first others ih =>
    have shorter := each _ _ _ first
    simp only [List.length_cons]
    omega

theorem Segment.length_lt {step : Step} (phrase : Segment tokens step rest) :
    rest.length < tokens.length := by
  cases phrase <;> simp only [List.length_cons] <;> omega

theorem Segments.length_le {steps : List Step} (phrase : Segments longest tokens steps rest) :
    rest.length ≤ tokens.length := by
  induction phrase with
  | nil ends => exact Nat.le_refl _
  | cons first others ih =>
    have shorter := first.length_lt
    omega

theorem Source.length_lt {expr : Expr} (phrase : Source longest tokens expr rest) :
    rest.length < tokens.length := by
  cases phrase with
  | question run =>
    have shorter := run.length_le
    simp only [List.length_cons]
    omega
  | segments first run =>
    have shorter := first.length_lt
    have others := run.length_le
    omega

theorem Value.length_lt {expr : Expr} (phrase : Value longest tokens expr rest) :
    rest.length < tokens.length := by
  cases phrase with
  | source phrase => exact phrase.length_lt
  | bare word | quoted text => simp

theorem Pairing.length_lt {item : Attribute} (phrase : Pairing longest tokens item rest) :
    rest.length < tokens.length := by
  cases phrase with
  | both name value =>
    have first := name.length_lt
    have second := value.length_lt
    simp only [List.length_cons]
    omega
  | nameOnly name =>
    have first := name.length_lt
    simp only [List.length_cons]
    omega

theorem Content.length_lt {node : Node} (phrase : Content longest tokens node rest) :
    rest.length < tokens.length := by
  cases phrase with
  | bare word | quoted text => simp
  | source phrase => exact phrase.length_lt

theorem Repeats.length_lt {repetition : Repetition}
    (phrase : Repeats longest tokens repetition rest) : rest.length < tokens.length := by
  cases phrase with
  | count digits small => simp
  | items phrase => exact phrase.length_lt

theorem Tag.length_lt {tag : Expr × Option Repetition} (phrase : Tag longest tokens tag rest) :
    rest.length < tokens.length := by
  cases phrase with
  | entries source =>
    have taken := source.length_lt
    simp only [List.length_cons]
    omega
  | once name => exact name.length_lt
  | repeated name repetition =>
    have first := name.length_lt
    have second := repetition.length_lt
    simp only [List.length_cons] at first
    omega

/-- A property of every item may as well be part of the phrases. -/
theorem many_and_iff {α : Type} {item : List Token → α → List Token → Prop} {property : α → Prop}
    {xs : List α} :
    Many (fun tokens x rest => item tokens x rest ∧ property x) tokens xs rest ↔
      Many item tokens xs rest ∧ ∀ x ∈ xs, property x := by
  constructor
  · intro many
    induction many with
    | nil rest => exact ⟨.nil rest, by simp⟩
    | cons first others ih => exact ⟨.cons first.1 ih.1, by simpa using ⟨first.2, ih.2⟩⟩
  · rintro ⟨many, all⟩
    induction many with
    | nil rest => exact .nil rest
    | cons first others ih =>
      exact .cons ⟨first, all _ (by simp)⟩ (ih fun x member => all x (by simp [member]))

theorem depthAll_le_iff {nodes : List Node} {levels : Nat} :
    Node.depthAll nodes ≤ levels ↔ ∀ node ∈ nodes, node.depth ≤ levels := by
  induction nodes with
  | nil => simp [Node.depthAll]
  | cons node nodes ih => rw [Node.depthAll, Nat.max_le, ih, List.forall_mem_cons]

/-- The induction is on a bound of the nesting, which the nodes inside stay below. -/
theorem Nested.length_lt_of_depth (levels : Nat) :
    ∀ {tokens rest : List Token} {node : Node}, node.depth ≤ levels →
      Nested longest tokens node rest → rest.length < tokens.length := by
  induction levels with
  | zero =>
    intro tokens rest node shallow phrase
    cases phrase <;> simp at shallow
  | succ levels ih =>
    intro tokens rest node shallow phrase
    cases phrase with
    | content tag attributes child =>
      have first := tag.length_lt
      have second := attributes.length_le fun _ _ _ => Pairing.length_lt
      have third := child.length_lt
      simp only [List.length_cons] at second third ⊢
      omega
    | children tag attributes nodes =>
      -- the children are one level less deep, so each of them takes tokens
      have inside := depthAll_le_iff.mp (Nat.le_of_succ_le_succ shallow)
      have first := tag.length_lt
      have second := attributes.length_le fun _ _ _ => Pairing.length_lt
      have third := (many_and_iff.mpr ⟨nodes, inside⟩).length_le fun _ _ _ both => ih both.2 both.1
      simp only [List.length_cons] at third ⊢
      omega
    | scope source nodes =>
      have inside := depthAll_le_iff.mp (Nat.le_of_succ_le_succ shallow)
      have first := source.length_lt
      have second := (many_and_iff.mpr ⟨nodes, inside⟩).length_le fun _ _ _ both => by
        rcases both with ⟨phrase | phrase, shallow⟩
        · exact ih shallow phrase
        · exact Nat.lt_succ_of_lt phrase.length_lt
      simp only [List.length_cons] at second ⊢
      omega

theorem Nested.length_lt {node : Node} (phrase : Nested longest tokens node rest) :
    rest.length < tokens.length :=
  length_lt_of_depth node.depth (Nat.le_refl _) phrase

theorem AnyNode.length_lt {node : Node} (phrase : AnyNode longest tokens node rest) :
    rest.length < tokens.length := by
  cases phrase with
  | nested phrase => exact phrase.length_lt
  | content phrase => exact Nat.lt_succ_of_lt phrase.length_lt

/-! ## First tokens -/

theorem Source.starts {source : Expr} (phrase : Source longest tokens source rest) :
    tokens.head? = some .question ∨ tokens.head? = some .dot := by
  cases phrase with
  | question run => exact .inl rfl
  | segments first run => cases first <;> exact .inr rfl

theorem Value.starts {expr : Expr} (phrase : Value longest tokens expr rest) :
    tokens.head? = some .question ∨ tokens.head? = some .dot ∨
      (∃ word, tokens.head? = some (.bare word)) ∨ ∃ text, tokens.head? = some (.quoted text) := by
  cases phrase with
  | source phrase =>
    rcases phrase.starts with starts | starts
    · exact .inl starts
    · exact .inr (.inl starts)
  | bare word => exact .inr (.inr (.inl ⟨word, rfl⟩))
  | quoted text => exact .inr (.inr (.inr ⟨text, rfl⟩))

theorem Value.ne_tilde {expr : Expr} (phrase : Value longest tokens expr rest) :
    tokens.head? ≠ some .tilde := by
  rcases phrase.starts with starts | starts | ⟨word, starts⟩ | ⟨text, starts⟩ <;> simp [starts]

theorem Value.source_of_starts {expr : Expr}
    (value : Value longest tokens expr rest)
    (starts : tokens.head? = some .question ∨ tokens.head? = some .dot) :
    Source longest tokens expr rest := by
  cases value with
  | source phrase => exact phrase
  | bare word | quoted text => simp at starts

theorem Nested.starts {node : Node} (phrase : Nested longest tokens node rest) :
    tokens.head? = some .less ∨ tokens.head? = some .openBrace := by
  cases phrase <;> simp

theorem AnyNode.starts (phrase : AnyNode longest tokens node rest) :
    tokens.head? = some .less ∨ tokens.head? = some .openBrace ∨
      tokens.head? = some .ampersand := by
  cases phrase with
  | nested phrase =>
    rcases phrase.starts with starts | starts
    · exact .inl starts
    · exact .inr (.inl starts)
  | content phrase => exact .inr (.inr rfl)

/-! ## Runs of segments -/

/-- A run that starts with a dot has a first segment. -/
theorem Segments.source {steps : List Step}
    (run : Segments longest tokens steps rest) (starts : tokens.head? = some .dot)
    (ends : rest.head? ≠ some .dot) : Source longest tokens (.ofSteps steps) rest := by
  cases run with
  | nil stops => exact absurd starts ends
  | cons first others => exact .segments first others

/-- A value that starts with a dot is a run of segments. -/
theorem Value.segments {value : Expr} (phrase : Value longest tokens value rest)
    (starts : tokens.head? = some .dot) :
    ∃ step steps middle, Segment tokens step middle ∧ Segments longest middle steps rest := by
  rcases phrase with (⟨run⟩ | ⟨first, run⟩) | _ | _
  · cases starts
  · exact ⟨_, _, _, first, run⟩
  · cases starts
  · cases starts

theorem Segments.maximal {steps : List Step} (phrase : Segments true tokens steps rest) :
    ¬ ∃ step after, Segment rest step after := by
  induction phrase with
  | nil ends => exact ends rfl
  | cons first others ih => exact ih

theorem Source.maximal {expr : Expr} (phrase : Source true tokens expr rest) :
    ¬ ∃ step after, Segment rest step after := by
  cases phrase with
  | question run => exact run.maximal
  | segments first run => exact run.maximal

theorem Segments.append {steps more : List Step} {middle : List Token}
    (run : Segments false tokens steps middle) (others : Segments false middle more rest) :
    Segments false tokens (steps ++ more) rest := by
  induction run with
  | nil stops => exact others
  | cons first run ih => exact .cons first (ih others)

/-- Segments after an expression may as well belong to it. -/
theorem Source.append {source : Expr} {steps : List Step} {middle : List Token}
    (phrase : Source false tokens source middle) (more : Segments false middle steps rest) :
    ∃ joined, Source false tokens joined rest := by
  cases phrase with
  | question run => exact ⟨_, .question (run.append more)⟩
  | segments first run => exact ⟨_, .segments first (run.append more)⟩

example : Pairing false [.equals, .question, .dot, .quoted "x"]
      ⟨.current, .ofSteps [.key "x"]⟩ [] ∧
    Pairing false [.equals, .question, .dot, .quoted "x"]
      ⟨.ofSteps [.key "x"], .current⟩ [] := by
  have segment : Segments false [.dot, .quoted "x"] [.key "x"] [] :=
    .cons (.quoted "x" []) (.nil nofun)
  have name : Source false [.question, .dot, .quoted "x"] (.ofSteps []) [.dot, .quoted "x"] :=
    .question (.nil nofun)
  have value : Source false [.dot, .quoted "x"] (.ofSteps [.key "x"]) [] :=
    .segments (.quoted "x" []) (.nil nofun)
  exact ⟨.both (.source name) (.source value), .nameOnly (.source (.question segment))⟩

/-! ## Contents -/

theorem Source.nodeOfExpr {expr : Expr}
    (phrase : Source longest tokens expr rest) : nodeOfExpr expr = .value expr := by
  cases phrase with
  | @question _ _ steps run => cases steps <;> rfl
  | segments first others => rfl

theorem Value.content {expr : Expr}
    (value : Value longest tokens expr rest) : Content longest tokens (nodeOfExpr expr) rest := by
  cases value with
  | source phrase => exact phrase.nodeOfExpr ▸ .source phrase
  | bare word | quoted text => constructor

theorem Content.depth_eq {node : Node}
    (phrase : Content longest tokens node rest) : node.depth = 0 := by
  cases phrase <;> rfl

end Grammar

end XmlTemplate.Format
