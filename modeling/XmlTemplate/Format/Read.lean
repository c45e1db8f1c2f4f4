import XmlTemplate.Format.Alphabet
import XmlTemplate.Format.Fault
import XmlTemplate.Template.Basic

/-!
# From tokens to nodes

Each reader takes the tokens from its place on and gives what it read with the tokens after it, or
the fault at the first token that fits nothing. Runs of segments are taken as long as possible.
Elements and scopes are read with one level less for what stands inside them.

Results:
1. `readSteps_of_not_dot`: a run of segments ends where no dot follows.
-/

namespace XmlTemplate.Format

/-! ## Repetition -/

/-- Items are read one after another while one starts, at most as many as there are tokens in
`bound`. -/
def readWithin {α : Type} (starts : Tokens → Bool) (item : Tokens → Except Fault (α × Tokens)) :
    (bound : Tokens) → Tokens → Except Fault (List α × Tokens)
  | .done _, tokens => .ok ([], tokens)
  | .next _ _ bound, tokens =>
    if starts tokens then do
      let (x, rest) ← item tokens
      let (xs, rest) ← readWithin starts item bound rest
      return (x :: xs, rest)
    else .ok ([], tokens)

/-- Items are read one after another while one starts. Each takes at least one token, so there
are no more of them than tokens. -/
def readMany {α : Type} (starts : Tokens → Bool) (item : Tokens → Except Fault (α × Tokens))
    (tokens : Tokens) : Except Fault (List α × Tokens) :=
  readWithin starts item tokens tokens

/-! ## Expressions -/

/-- The segment that a word without quotes spells. -/
def stepOfBare (word : String) : Step :=
  if isDigits word then .index word else .key word

/-- A longest run of segments, each after its dot. -/
def readSteps : Tokens → Except Fault (List Step × Tokens)
  | .next .dot _ (.next (.bare word) _ rest) => do
    let (more, rest) ← readSteps rest
    return (stepOfBare word :: more, rest)
  | .next .dot _ (.next (.quoted text) _ rest) => do
    let (more, rest) ← readSteps rest
    return (.key text :: more, rest)
  | .next .dot _ rest => .error (rest.fault .segment)
  | tokens => .ok ([], tokens)

theorem readSteps_of_not_dot {tokens : Tokens} (other : tokens.first? ≠ some .dot) :
    readSteps tokens = .ok ([], tokens) := by
  unfold readSteps
  split <;> simp_all [Tokens.first?]

/-- An expression that is no literal starts. -/
def startsSource : Tokens → Bool
  | .next .question _ _ | .next .dot _ _ => true
  | _ => false

/-- An expression starts. -/
def startsExpr : Tokens → Bool
  | .next .question _ _ | .next .dot _ _ | .next (.bare _) _ _ | .next (.quoted _) _ _ => true
  | _ => false

/-- An expression: a literal, or the object in scope with the segments after it. -/
def readExpr (expected : Expectation) : Tokens → Except Fault (Expr × Tokens)
  | .next .question _ rest => do
    let (steps, rest) ← readSteps rest
    return (.ofSteps steps, rest)
  | .next .dot offset rest => do
    let (steps, rest) ← readSteps (.next .dot offset rest)
    return (.ofSteps steps, rest)
  | .next (.bare word) _ rest => .ok (.literal word, rest)
  | .next (.quoted text) _ rest => .ok (.literal text, rest)
  | tokens => .error (tokens.fault expected)

/-- An expression that is no literal. -/
def readSource (expected : Expectation) (tokens : Tokens) : Except Fault (Expr × Tokens) :=
  if startsSource tokens then readExpr expected tokens else .error (tokens.fault expected)

/-! ## Parts of an element -/

/-- The source after a star: a count or an expression. -/
def readRepetition (tokens : Tokens) : Except Fault (Repetition × Tokens) :=
  match tokens with
  | .next (.bare word) _ rest =>
    match Decimal.digits? word.toList with
    | some count =>
      if count < Decimal.wordBound then .ok (.times count, rest)
      else .error (tokens.fault .boundedCount)
    | none => .error (tokens.fault .repetitionSource)
  | tokens => do
    let (source, rest) ← readSource .repetitionSource tokens
    return (.items source, rest)

/-- The name of an element and its repetition. -/
def readTag : Tokens → Except Fault ((Expr × Option Repetition) × Tokens)
  | .next .tilde _ rest => do
    let (source, rest) ← readSource .entrySource rest
    return ((.current, some (.entries source)), rest)
  | tokens => do
    let (name, rest) ← readExpr .tagName tokens
    match rest with
    | .next .star _ rest =>
      let (repetition, rest) ← readRepetition rest
      return ((name, some repetition), rest)
    | rest => return ((name, none), rest)

/-- An attribute starts. -/
def startsAttribute : Tokens → Bool
  | .next .equals _ _ => true
  | _ => false

/-- An attribute; without a value it has the object in scope as its value. -/
def readAttribute : Tokens → Except Fault (Attribute × Tokens)
  | .next .equals _ rest => do
    let (name, rest) ← readExpr .attributeName rest
    if startsExpr rest then
      let (value, rest) ← readExpr .attributeValue rest
      return (⟨name, value⟩, rest)
    else return (⟨name, .current⟩, rest)
  | tokens => .error (tokens.fault .elementPart)

/-- The node that an expression stands for as content. -/
def nodeOfExpr : Expr → Node
  | .literal text => .text text
  | source => .value source

/-- The content after an ampersand: a literal is a text, anything else a value. -/
def readContent (tokens : Tokens) : Except Fault (Node × Tokens) := do
  let (expr, rest) ← readExpr .content tokens
  return (nodeOfExpr expr, rest)

/-! ## Nodes -/

/-- An element or a scope starts. -/
def startsNested : Tokens → Bool
  | .next .less _ _ | .next .openBrace _ _ => true
  | _ => false

/-- A node starts. -/
def startsNode : Tokens → Bool
  | .next .less _ _ | .next .openBrace _ _ | .next .ampersand _ _ => true
  | _ => false

/-- The children of an element: one content, or elements and scopes. -/
def readChildren (nested : Tokens → Except Fault (Node × Tokens)) :
    Tokens → Except Fault (List Node × Tokens)
  | .next .ampersand _ rest => do
    let (only, rest) ← readContent rest
    return ([only], rest)
  | tokens => readMany startsNested nested tokens

/-- An element after its opening sign, with `nested` for what stands inside it. -/
def readElement (nested : Tokens → Except Fault (Node × Tokens)) (tokens : Tokens) :
    Except Fault (Node × Tokens) := do
  let ((name, repetition), rest) ← readTag tokens
  let (attributes, rest) ← readMany startsAttribute readAttribute rest
  let (children, rest) ← readChildren nested rest
  match rest with
  | .next .greater _ rest => return (.element ⟨name, repetition, attributes⟩ children, rest)
  | rest => throw (rest.fault (if children.isEmpty then .elementPart else .elementEnd))

/-- A node, with `nested` for an element or a scope. -/
def readNode (nested : Tokens → Except Fault (Node × Tokens)) :
    Tokens → Except Fault (Node × Tokens)
  | .next .ampersand _ rest => readContent rest
  | tokens => if startsNested tokens then nested tokens else .error (tokens.fault .node)

/-- A scope after its opening sign, with `nested` for what stands inside it. -/
def readScope (nested : Tokens → Except Fault (Node × Tokens)) (tokens : Tokens) :
    Except Fault (Node × Tokens) := do
  let (source, rest) ← readSource .scopeSource tokens
  let (children, rest) ← readMany startsNode (readNode nested) rest
  match rest with
  | .next .closeBrace _ rest => return (.scope source children, rest)
  | rest => throw (rest.fault .scopePart)

/-- An element or a scope that is at most `levels` deep. -/
def readNested : (levels : Nat) → Tokens → Except Fault (Node × Tokens)
  | 0, tokens => .error (tokens.fault .shallower)
  | levels + 1, .next .less _ rest => readElement (readNested levels) rest
  | levels + 1, .next .openBrace _ rest => readScope (readNested levels) rest
  | _ + 1, tokens => .error (tokens.fault .node)

/-! ## Documents -/

/-- The input goes on. -/
def goesOn : Tokens → Bool
  | .next .. => true
  | .done _ => false

/-- A node of the outermost level with its offset. -/
def readTop (tokens : Tokens) : Except Fault ((Nat × Node) × Tokens) := do
  let (node, rest) ← readNode (readNested maxDepth) tokens
  return ((tokens.offset, node), rest)

/-- The nodes of a whole document with their offsets. -/
def readDocument (tokens : Tokens) : Except Fault (List (Nat × Node)) := do
  let (nodes, _) ← readMany goesOn readTop tokens
  return nodes

/-- A document with a single root is one element that is not repeated. -/
def checkRoot : List (Nat × Node) → Except Fault Unit
  | [] => .error ⟨0, .root, .endOfInput⟩
  | [(_, .element ⟨_, none, _⟩ _)] => .ok ()
  | [(offset, .element ⟨_, some _, _⟩ _)] => .error ⟨offset, .singleRoot, .repeatedElement⟩
  | [(offset, _)] => .error ⟨offset, .root, .otherNode⟩
  | _ :: (offset, _) :: _ => .error ⟨offset, .endAfterRoot, .anotherNode⟩

end XmlTemplate.Format
