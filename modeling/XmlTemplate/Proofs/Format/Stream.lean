import XmlTemplate.Format.Read

/-!
# Streams as sequences

What the readers decide depends on the tokens and not on their offsets. Offsets are put into what is
read only for the nodes of the outermost level, and reading without them comes to the same.

Results:
1. `startsSource_iff`, `startsNested_iff`: what the first token says.
2. `digits?_eq_some_iff`: the number that a word of digits spells.
3. `readDocument_eq`: the nodes of a document are read one after another.
-/

namespace XmlTemplate.Format

/-- The tokens without their offsets. -/
def Tokens.sequence : Tokens → List Token
  | .done _ => []
  | .next token _ rest => token :: rest.sequence

theorem sequence_head? (tokens : Tokens) : tokens.sequence.head? = tokens.first? := by
  cases tokens <;> rfl

theorem sequence_eq_cons {tokens : Tokens} {token : Token} {more : List Token}
    (shape : tokens.sequence = token :: more) :
    ∃ offset rest, tokens = .next token offset rest ∧ rest.sequence = more := by
  cases tokens with
  | done offset => cases shape
  | next token offset rest =>
    cases shape
    exact ⟨offset, rest, rfl, rfl⟩

theorem eq_next_of_head? {tokens : Tokens} {token : Token}
    (starts : tokens.sequence.head? = some token) :
    ∃ offset rest, tokens = .next token offset rest := by
  cases tokens with
  | done offset => cases starts
  | next token offset rest =>
    cases starts
    exact ⟨offset, rest, rfl⟩

theorem sequence_length (tokens : Tokens) : tokens.sequence.length = tokens.size := by
  induction tokens with
  | done offset => rfl
  | next token offset rest ih => simp [Tokens.sequence, ih]

theorem startsSource_iff {tokens : Tokens} :
    startsSource tokens = true ↔
      tokens.sequence.head? = some .question ∨ tokens.sequence.head? = some .dot := by
  rw [sequence_head?]
  cases tokens with
  | done offset => simp [startsSource, Tokens.first?]
  | next token offset rest => cases token <;> simp [startsSource, Tokens.first?]

theorem startsNested_iff {tokens : Tokens} :
    startsNested tokens = true ↔
      tokens.sequence.head? = some .less ∨ tokens.sequence.head? = some .openBrace := by
  rw [sequence_head?]
  cases tokens with
  | done offset => simp [startsNested, Tokens.first?]
  | next token offset rest => cases token <;> simp [startsNested, Tokens.first?]

theorem digits?_eq_some_iff {word : String} {count : Nat} :
    Decimal.digits? word.toList = some count ↔
      isDigits word = true ∧ Decimal.ofDigits word.toList = count := by
  have empty : word.toList.isEmpty = word.isEmpty := by
    rw [Bool.eq_iff_iff, List.isEmpty_iff, String.isEmpty_iff, String.toList_eq_nil_iff]
  rw [Decimal.digits?, empty, ← isDigits]
  cases isDigits word <;> simp

/-! ## Documents -/

/-- The nodes of a whole document, without their offsets. -/
def readNodes (tokens : Tokens) : Except Fault (List Node × Tokens) :=
  readMany goesOn (readNode (readNested maxDepth)) tokens

/-- The bound and the items are the same, so the readers fail or stop together. -/
theorem readWithin_readTop (bound tokens : Tokens) :
    (readWithin goesOn readTop bound tokens).map (fun both => (both.1.map Prod.snd, both.2)) =
      readWithin goesOn (readNode (readNested maxDepth)) bound tokens := by
  induction bound generalizing tokens with
  | done offset => rfl
  | next token offset bound ih =>
    rw [readWithin, readWithin, readTop]
    split
    · cases first : readNode (readNested maxDepth) tokens with
      | error fault => rfl
      | ok both =>
        obtain ⟨node, rest⟩ := both
        have others := ih rest
        simp only [bind, Except.bind, pure, Except.pure] at others ⊢
        rw [← others]
        cases readWithin goesOn readTop bound rest <;> rfl
    · rfl

/-- A document is read as the nodes it has, one after another. -/
theorem readDocument_eq (tokens : Tokens) :
    (readDocument tokens).map (List.map Prod.snd) = (readNodes tokens).map Prod.fst := by
  rw [readNodes, readMany, ← readWithin_readTop, readDocument, readMany]
  cases readWithin goesOn readTop tokens tokens <;> rfl

end XmlTemplate.Format
