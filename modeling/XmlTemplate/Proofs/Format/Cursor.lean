import XmlTemplate.Proofs.Format.Walk

/-!
# Reading with a cursor

Reading can go by an index into the list of tokens and a counter of the levels that are open. An index
past the list is answered as if the end of the input stood there, and nothing in this form says that a
loop or a recursion ends: a reader has no value if it goes on forever. A cursor keeps a record of all
that is done with the list and the counter.

Results:
1. `At.getElem?`: what stands at a cursor.
2. `At.lt_of_size`: a cursor with fewer tokens left has moved on.
-/

namespace XmlTemplate.Format

/-- What a reader does with its tokens and its counter. -/
inductive Use where
  /-- It looks at the token at an index. -/
  | look (pos : Nat)
  /-- It takes the token at an index. -/
  | take (pos : Nat)
  /-- It begins an element or a scope, which is the last of so many levels. -/
  | enter (level : Nat)
  deriving DecidableEq, Repr

/-- The index is within the list, what is taken is not the end of the input, the level is not too deep. -/
def Use.Proper (list : Listing) : Use → Prop
  | .look pos => pos < list.length
  | .take pos => ∃ token offset, list[pos]? = some (some token, offset)
  | .enter level => level ≤ maxDepth

/-- The place of a reader: the index of its next token, the number of levels that are open, and the
record of what it has done so far. -/
structure Cursor where
  pos : Nat
  depth : Nat
  uses : List Use
  deriving DecidableEq, Repr

namespace Cursor

/-- The cursor on the first of the tokens. -/
def initial : Cursor := ⟨0, 0, []⟩

/-- One thing more has been done. -/
def add (s : Cursor) (use : Use) : Cursor := { s with uses := s.uses ++ [use] }

/-- One level more is open. -/
def deeper (s : Cursor) : Cursor := { s.add (.enter (s.depth + 1)) with depth := s.depth + 1 }

/-- The last level is closed. -/
def higher (s : Cursor) : Cursor := { s with depth := s.depth - 1 }

end Cursor

/-! ## Readers -/

/-- A reader moves a cursor. -/
abbrev Reading (α : Type) := Walk Cursor α

namespace Listing

/-- The token at the cursor, or the end of the input. -/
def peek (list : Listing) : Reading (Option Token) := do
  let s ← get
  set (s.add (.look s.pos))
  return (list[s.pos]?).elim none Prod.fst

/-- The offset of the token at the cursor. Past the list it is the last one of the list. -/
def place (list : Listing) : Reading Nat := do
  let s ← get
  set (s.add (.look s.pos))
  return ((list[s.pos]?).or list.getLast?).elim 0 Prod.snd

/-- The token at the cursor, which moves past it. -/
def advance (list : Listing) : Reading (Option Token) := do
  let s ← get
  set { s.add (.take s.pos) with pos := s.pos + 1 }
  return (list[s.pos]?).elim none Prod.fst

/-- Reading fails at the cursor. -/
def fail {α : Type} (list : Listing) (expected : Expectation) : Reading α := do
  let offset ← list |>.place
  let found ← list |>.peek
  throw ⟨offset, expected, found.elim .endOfInput .token⟩

/-- A sign that has to stand at the cursor. -/
def expect (list : Listing) (sign : Token) : Reading Unit := do
  if (← list |>.peek) = some sign then
    let _ ← list |>.advance
    return ()
  else list |>.fail .node

/-- A dot and the segment after it. -/
def step (list : Listing) : Reading Step := do
  let _ ← list |>.advance
  match ← list |>.peek with
  | some (.bare word) => do
    let _ ← list |>.advance
    return stepOfBare word
  | some (.quoted text) => do
    let _ ← list |>.advance
    return .key text
  | _ => list |>.fail .segment

/-- Segments as long as there is a dot. -/
def steps (list : Listing) : Reading (List Step) := do
  if (← list |>.peek) = some .dot then
    let first ← list |>.step
    let others ← list |>.steps
    return first :: others
  else return []
partial_fixpoint

/-- An expression. -/
def expr (list : Listing) (expected : Expectation) : Reading Expr := do
  match ← list |>.peek with
  | some .question => do
    let _ ← list |>.advance
    return .ofSteps (← list |>.steps)
  | some .dot => return .ofSteps (← list |>.steps)
  | some (.bare word) => do
    let _ ← list |>.advance
    return .literal word
  | some (.quoted text) => do
    let _ ← list |>.advance
    return .literal text
  | _ => list |>.fail expected

/-- An expression that is no literal. -/
def source (list : Listing) (expected : Expectation) : Reading Expr := do
  match ← list |>.peek with
  | some .question | some .dot => list |>.expr expected
  | _ => list |>.fail expected

/-- The source after a star. -/
def repetition (list : Listing) : Reading Repetition := do
  match ← list |>.peek with
  | some (.bare word) =>
    if isDigits word then
      if Decimal.ofDigits word.toList < Decimal.wordBound then do
        let _ ← list |>.advance
        return .times (Decimal.ofDigits word.toList)
      else list |>.fail .boundedCount
    else return .items (← list |>.source .repetitionSource)
  | _ => return .items (← list |>.source .repetitionSource)

/-- The name of an element, with its repetition if a star follows. -/
def named (list : Listing) : Reading (Expr × Option Repetition) := do
  let name ← list |>.expr .tagName
  match ← list |>.peek with
  | some .star => do
    let _ ← list |>.advance
    return (name, some (← list |>.repetition))
  | _ => return (name, none)

/-- The name of an element and its repetition. -/
def tag (list : Listing) : Reading (Expr × Option Repetition) := do
  match ← list |>.peek with
  | some .tilde => do
    let _ ← list |>.advance
    return (.current, some (.entries (← list |>.source .entrySource)))
  | _ => list |>.named

/-- An attribute after its sign. -/
def pairing (list : Listing) : Reading Attribute := do
  let _ ← list |>.advance
  let name ← list |>.expr .attributeName
  match ← list |>.peek with
  | some .question | some .dot | some (.bare _) | some (.quoted _) =>
    return ⟨name, ← list |>.expr .attributeValue⟩
  | _ => return ⟨name, .current⟩

/-- Attributes as long as there is an equals sign. -/
def pairings (list : Listing) : Reading (List Attribute) := do
  if (← list |>.peek) = some .equals then
    let first ← list |>.pairing
    let others ← list |>.pairings
    return first :: others
  else return []
partial_fixpoint

/-- The content after an ampersand. -/
def content (list : Listing) : Reading Node := return nodeOfExpr (← list |>.expr .content)

mutual
/-- An element, a scope or a content. -/
def node (list : Listing) : Reading Node := do
  match ← list |>.peek with
  | some .less | some .openBrace => list |>.nested
  | some .ampersand => do
    let _ ← list |>.advance
    list |>.content
  | _ => list |>.fail .node
partial_fixpoint

/-- An element or a scope, one level deeper. The level is closed again whether reading fails or not. -/
def nested (list : Listing) : Reading Node := fun s =>
  if maxDepth ≤ s.depth then list |>.fail .shallower s
  else do
    let (outcome, t) ← list |>.inside s.deeper
    return (outcome, t.higher)
partial_fixpoint

/-- An element or a scope on its level. -/
def inside (list : Listing) : Reading Node := do
  if (← list |>.peek) = some .less then list |>.element else list |>.scope
partial_fixpoint

/-- An element. -/
def element (list : Listing) : Reading Node := do
  list |>.expect .less
  let (name, repetition) ← list |>.tag
  let attributes ← list |>.pairings
  let children ← list |>.children
  match ← list |>.peek with
  | some .greater => do
    let _ ← list |>.advance
    return .element ⟨name, repetition, attributes⟩ children
  | _ => list |>.fail (if children.isEmpty then .elementPart else .elementEnd)
partial_fixpoint

/-- The children of an element. -/
def children (list : Listing) : Reading (List Node) := do
  match ← list |>.peek with
  | some .ampersand => do
    let _ ← list |>.advance
    return [← list |>.content]
  | _ => list |>.nestedNodes
partial_fixpoint

/-- Elements and scopes as long as one starts. -/
def nestedNodes (list : Listing) : Reading (List Node) := do
  if [some .less, some .openBrace].contains (← list |>.peek) then
    let first ← list |>.node
    let others ← list |>.nestedNodes
    return first :: others
  else return []
partial_fixpoint

/-- A scope. -/
def scope (list : Listing) : Reading Node := do
  list |>.expect .openBrace
  let source ← list |>.source .scopeSource
  let children ← list |>.nodes
  match ← list |>.peek with
  | some .closeBrace => do
    let _ ← list |>.advance
    return .scope source children
  | _ => list |>.fail .scopePart
partial_fixpoint

/-- Nodes as long as one starts. -/
def nodes (list : Listing) : Reading (List Node) := do
  if [some .less, some .openBrace, some .ampersand].contains (← list |>.peek) then
    let first ← list |>.node
    let others ← list |>.nodes
    return first :: others
  else return []
partial_fixpoint
end

/-- A node of the outermost level with its offset. -/
def top (list : Listing) : Reading (Nat × Node) := do
  let offset ← list |>.place
  let found ← list |>.node
  return (offset, found)

/-- The nodes up to the end of the input. -/
def document (list : Listing) : Reading (List (Nat × Node)) := do
  if (← list |>.peek).isSome then
    let first ← list |>.top
    let others ← list |>.document
    return first :: others
  else return []
partial_fixpoint
end Listing

/-! ## Tokens at a cursor -/

namespace Cursor

/-- The cursor stands at the first of the tokens. -/
def At (stream : Tokens) (s : Cursor) (tokens : Tokens) : Prop :=
  stream.toList.drop s.pos = tokens.toList

section
variable {stream tokens rest : Tokens} {s t : Cursor}

theorem At.getElem? (here : s.At stream tokens) :
    stream.toList[s.pos]? = some (tokens.first?, tokens.offset) := by
  rw [← toList_head? tokens, ← here, List.getElem?_drop, Nat.add_zero]

theorem At.lt_length (here : s.At stream tokens) : s.pos < stream.toList.length := by
  obtain ⟨inside, -⟩ := List.getElem?_eq_some_iff.mp here.getElem?
  exact inside

/-- Fewer tokens are left when the cursor has moved on. -/
theorem At.lt_of_size (here : s.At stream tokens) (there : t.At stream rest)
    (fewer : rest.size < tokens.size) : s.pos < t.pos := by
  have before : stream.toList.length - s.pos = tokens.size + 1 := by
    rw [← List.length_drop, here, toList_length, sequence_length]
  have after : stream.toList.length - t.pos = rest.size + 1 := by
    rw [← List.length_drop, there, toList_length, sequence_length]
  omega
end

end Cursor

end XmlTemplate.Format
