import XmlTemplate.Proofs.Format.Grammar
import XmlTemplate.Proofs.Format.Stream
import XmlTemplate.Proofs.Result

/-!
# What is read is derivable

Each reader is sound for its phrases: what it reads from tokens is derivable, whether or not runs of
segments have to be as long as possible, and the tokens that it leaves are the ones after the phrase.
Nesting stays within the levels that are given.

Results:
1. `segments_of_readSteps`, `value_of_readExpr`: runs of segments and values.
2. `many_of_readWithin`: items that are read one after another are phrases one after another.
3. `nested_of_readNested`: elements and scopes.
4. `document_of_readNodes`: whole documents.
-/

namespace XmlTemplate.Format

open Grammar
open Result (bind_eq_ok)

variable (longest : Bool)

/-! ## Values -/

theorem segment_stepOfBare (word : String) (rest : List Token) :
    Segment (.dot :: .bare word :: rest) (stepOfBare word) rest := by
  cases digits : isDigits word with
  | true => simpa [stepOfBare, digits] using Segment.index rest digits
  | false => simpa [stepOfBare, digits] using Segment.key rest digits

theorem not_segment_of_not_dot {tokens : List Token} (other : tokens.head? ≠ some .dot) :
    ¬ ∃ step rest, Segment tokens step rest := by
  rintro ⟨step, rest, phrase⟩
  cases phrase <;> simp at other

theorem segments_of_readSteps {tokens rest : Tokens} {steps : List Step}
    (read : readSteps tokens = .ok (steps, rest)) :
    Segments longest tokens.sequence steps rest.sequence ∧ rest.sequence.head? ≠ some .dot := by
  fun_induction readSteps tokens generalizing steps with
  | case1 dotAt word wordAt after ih =>
    obtain ⟨⟨more, last⟩, run, read⟩ := bind_eq_ok.mp read
    cases read
    obtain ⟨others, ends⟩ := ih run
    exact ⟨.cons (segment_stepOfBare word _) others, ends⟩
  | case2 dotAt text textAt after ih =>
    obtain ⟨⟨more, last⟩, run, read⟩ := bind_eq_ok.mp read
    cases read
    obtain ⟨others, ends⟩ := ih run
    exact ⟨.cons (.quoted text _) others, ends⟩
  | case3 dotAt after bare quoted => cases read
  | case4 tokens bare quoted dot =>
    cases read
    -- no dot follows, so the run is as long as possible
    have ends : rest.sequence.head? ≠ some .dot := by
      rw [sequence_head?]
      cases rest with
      | done offset => simp [Tokens.first?]
      | next token offset rest =>
        rintro ⟨⟩
        exact dot offset rest rfl
    exact ⟨.nil fun _ => not_segment_of_not_dot ends, ends⟩

theorem value_of_readExpr {expected : Expectation} {tokens rest : Tokens} {expr : Expr}
    (read : readExpr expected tokens = .ok (expr, rest)) :
    Value longest tokens.sequence expr rest.sequence := by
  unfold readExpr at read
  split at read
  · obtain ⟨⟨steps, last⟩, run, read⟩ := bind_eq_ok.mp read
    cases read
    exact .source (.question (segments_of_readSteps longest run).1)
  · obtain ⟨⟨steps, last⟩, run, read⟩ := bind_eq_ok.mp read
    cases read
    obtain ⟨segments, ends⟩ := segments_of_readSteps longest run
    exact .source (segments.source rfl ends)
  · cases read
    exact .bare ..
  · cases read
    exact .quoted ..
  · cases read

theorem source_of_readSource {expected : Expectation} {tokens rest : Tokens} {source : Expr}
    (read : readSource expected tokens = .ok (source, rest)) :
    Source longest tokens.sequence source rest.sequence := by
  unfold readSource at read
  split at read
  · exact (value_of_readExpr longest read).source_of_starts (startsSource_iff.mp ‹_›)
  · cases read

/-! ## Parts of an element -/

theorem repeats_of_readRepetition {tokens rest : Tokens} {repetition : Repetition}
    (read : readRepetition tokens = .ok (repetition, rest)) :
    Repeats longest tokens.sequence repetition rest.sequence := by
  unfold readRepetition at read
  split at read
  · split at read
    · rename_i digits
      split at read
      · cases read
        obtain ⟨run, rfl⟩ := digits?_eq_some_iff.mp digits
        exact .count _ run ‹_›
      · cases read
    · cases read
  · obtain ⟨⟨source, last⟩, run, read⟩ := bind_eq_ok.mp read
    cases read
    exact .items (source_of_readSource longest run)

theorem tag_of_readTag {tokens rest : Tokens} {tag : Expr × Option Repetition}
    (read : readTag tokens = .ok (tag, rest)) : Tag longest tokens.sequence tag rest.sequence := by
  unfold readTag at read
  split at read
  · obtain ⟨⟨source, last⟩, run, read⟩ := bind_eq_ok.mp read
    cases read
    exact .entries (source_of_readSource longest run)
  · obtain ⟨⟨name, last⟩, named, read⟩ := bind_eq_ok.mp read
    have name := value_of_readExpr longest named
    simp only at read
    split at read
    · obtain ⟨⟨repetition, last⟩, run, read⟩ := bind_eq_ok.mp read
      cases read
      exact .repeated name (repeats_of_readRepetition longest run)
    · cases read
      exact .once name

theorem pairing_of_readAttribute {tokens rest : Tokens} {item : Attribute}
    (read : readAttribute tokens = .ok (item, rest)) :
    Pairing longest tokens.sequence item rest.sequence := by
  unfold readAttribute at read
  split at read
  · obtain ⟨⟨name, last⟩, named, read⟩ := bind_eq_ok.mp read
    have name := value_of_readExpr longest named
    simp only at read
    split at read
    · obtain ⟨⟨value, last⟩, run, read⟩ := bind_eq_ok.mp read
      cases read
      exact .both name (value_of_readExpr longest run)
    · cases read
      exact .nameOnly name
  · cases read

theorem content_of_readContent {tokens rest : Tokens} {node : Node}
    (read : readContent tokens = .ok (node, rest)) :
    Content longest tokens.sequence node rest.sequence := by
  obtain ⟨⟨expr, last⟩, run, read⟩ := bind_eq_ok.mp read
  cases read
  exact (value_of_readExpr longest run).content

/-! ## Items one after another -/

/-- What is read is a phrase up to the tokens that are left. -/
def Sound {α : Type} (reader : Tokens → Except Fault (α × Tokens))
    (phrase : List Token → α → List Token → Prop) : Prop :=
  ∀ tokens x rest, reader tokens = .ok (x, rest) → phrase tokens.sequence x rest.sequence

/-- Reading a phrase takes tokens. -/
theorem size_lt_of_sound {α : Type} {reader : Tokens → Except Fault (α × Tokens)}
    {phrase : List Token → α → List Token → Prop} (sound : Sound reader phrase)
    (shorter : ∀ tokens x rest, phrase tokens x rest → rest.length < tokens.length)
    (tokens : Tokens) (x : α) (rest : Tokens) (read : reader tokens = .ok (x, rest)) :
    rest.size < tokens.size := by
  have taken := shorter _ _ _ (sound _ _ _ read)
  rwa [sequence_length, sequence_length] at taken

/-- Items that are read one after another are phrases one after another. -/
theorem many_of_readWithin {α : Type} {starts : Tokens → Bool}
    {item : Tokens → Except Fault (α × Tokens)} {phrase : List Token → α → List Token → Prop}
    (each : Sound item phrase) {bound tokens rest : Tokens} {xs : List α}
    (read : readWithin starts item bound tokens = .ok (xs, rest)) :
    Many phrase tokens.sequence xs rest.sequence := by
  induction bound generalizing tokens xs with
  | done offset =>
    cases read
    exact .nil _
  | next token offset bound ih =>
    rw [readWithin] at read
    split at read
    · obtain ⟨⟨x, middle⟩, first, read⟩ := bind_eq_ok.mp read
      obtain ⟨⟨others, last⟩, more, read⟩ := bind_eq_ok.mp read
      cases read
      exact .cons (each _ _ _ first) (ih more)
    · cases read
      exact .nil _

/-- With a bound that is no shorter than the tokens, reading ends where no item starts. -/
theorem not_starts_of_readWithin {α : Type} {starts : Tokens → Bool}
    {item : Tokens → Except Fault (α × Tokens)}
    (each : ∀ tokens x rest, item tokens = .ok (x, rest) → rest.size < tokens.size)
    (ends : ∀ offset, starts (.done offset) = false) {bound tokens rest : Tokens} {xs : List α}
    (enough : tokens.size ≤ bound.size)
    (read : readWithin starts item bound tokens = .ok (xs, rest)) : starts rest = false := by
  induction bound generalizing tokens xs with
  | done offset =>
    cases read
    cases rest with
    | done offset => exact ends offset
    | next token offset rest => simp at enough
  | next token offset bound ih =>
    rw [readWithin] at read
    split at read
    · obtain ⟨⟨x, middle⟩, first, read⟩ := bind_eq_ok.mp read
      obtain ⟨⟨others, last⟩, more, read⟩ := bind_eq_ok.mp read
      cases read
      -- the item took a token, so the rest of the bound is enough for the rest of the tokens
      have shorter := each _ _ _ first
      rw [Tokens.size_next] at enough
      exact ih (by omega) more
    · cases read
      exact Bool.eq_false_iff.mpr ‹_›

/-! ## Nodes -/

section
variable {longest} {levels : Nat} {nested : Tokens → Except Fault (Node × Tokens)} {tokens rest : Tokens}
  {node : Node}
  (reads : Sound nested fun tokens node rest => Nested longest tokens node rest ∧ node.depth ≤ levels)
include reads

theorem anyNode_of_readNode :
    Sound (readNode nested) fun tokens node rest =>
      AnyNode longest tokens node rest ∧ node.depth ≤ levels := by
  intro tokens node rest read
  unfold readNode at read
  split at read
  · have content := content_of_readContent longest read
    exact ⟨.content content, by simp [content.depth_eq]⟩
  · split at read
    · obtain ⟨phrase, shallow⟩ := reads _ _ _ read
      exact ⟨.nested phrase, shallow⟩
    · cases read

theorem nested_of_readElement (read : readElement nested tokens = .ok (node, rest)) :
    Nested longest (.less :: tokens.sequence) node rest.sequence ∧ node.depth ≤ levels + 1 := by
  obtain ⟨⟨⟨name, repetition⟩, afterTag⟩, tag, read⟩ := bind_eq_ok.mp read
  obtain ⟨⟨attributes, afterAttributes⟩, run, read⟩ := bind_eq_ok.mp read
  obtain ⟨⟨children, afterChildren⟩, inner, read⟩ := bind_eq_ok.mp read
  have tag := tag_of_readTag longest tag
  have attributes := many_of_readWithin (fun _ _ _ => pairing_of_readAttribute longest) run
  simp only at read
  split at read
  · cases read
    unfold readChildren at inner
    split at inner
    · obtain ⟨⟨only, last⟩, content, inner⟩ := bind_eq_ok.mp inner
      cases inner
      have content := content_of_readContent longest content
      exact ⟨.content tag attributes content, by simp [Node.depthAll, content.depth_eq]⟩
    · obtain ⟨phrases, shallow⟩ := many_and_iff.mp (many_of_readWithin reads inner)
      exact ⟨.children tag attributes phrases, by simpa using depthAll_le_iff.mpr shallow⟩
  · cases read

theorem nested_of_readScope (read : readScope nested tokens = .ok (node, rest)) :
    Nested longest (.openBrace :: tokens.sequence) node rest.sequence ∧ node.depth ≤ levels + 1 := by
  obtain ⟨⟨source, afterSource⟩, start, read⟩ := bind_eq_ok.mp read
  obtain ⟨⟨children, afterChildren⟩, inner, read⟩ := bind_eq_ok.mp read
  simp only at read
  split at read
  · cases read
    obtain ⟨phrases, shallow⟩ :=
      many_and_iff.mp (many_of_readWithin (anyNode_of_readNode reads) inner)
    exact ⟨.scope (source_of_readSource longest start) phrases, by simpa using depthAll_le_iff.mpr shallow⟩
  · cases read
end

theorem nested_of_readNested (levels : Nat) :
    Sound (readNested levels) fun tokens node rest =>
      Nested longest tokens node rest ∧ node.depth ≤ levels := by
  induction levels with
  | zero => intro tokens node rest read; cases read
  | succ levels ih =>
    intro tokens node rest read
    unfold readNested at read
    split at read
    · rename_i shape
      cases shape
    · rename_i shape
      cases shape
      exact nested_of_readElement ih read
    · rename_i shape
      cases shape
      exact nested_of_readScope ih read
    · cases read

/-! ## Documents -/

theorem sound_readNode :
    Sound (readNode (readNested maxDepth)) fun tokens node rest =>
      AnyNode longest tokens node rest ∧ node.depth ≤ maxDepth :=
  anyNode_of_readNode (nested_of_readNested longest maxDepth)

theorem size_lt_of_readNode (tokens : Tokens) (node : Node) (rest : Tokens)
    (read : readNode (readNested maxDepth) tokens = .ok (node, rest)) :
    rest.size < tokens.size :=
  size_lt_of_sound (sound_readNode false) (fun _ _ _ phrase => phrase.1.length_lt) _ _ _ read

/-- The nodes of a document go up to its end. -/
theorem done_of_readNodes {tokens rest : Tokens} {nodes : List Node}
    (read : readNodes tokens = .ok (nodes, rest)) : ∃ offset, rest = .done offset := by
  have ends := not_starts_of_readWithin size_lt_of_readNode (fun _ => rfl) (Nat.le_refl _) read
  cases rest with
  | done offset => exact ⟨offset, rfl⟩
  | next token offset rest => cases ends

theorem document_of_readNodes {tokens rest : Tokens} {nodes : List Node}
    (read : readNodes tokens = .ok (nodes, rest)) :
    Document longest tokens.sequence nodes ∧ Node.depthAll nodes ≤ maxDepth := by
  obtain ⟨offset, rfl⟩ := done_of_readNodes read
  obtain ⟨phrases, shallow⟩ := many_and_iff.mp (many_of_readWithin (sound_readNode longest) read)
  exact ⟨phrases, depthAll_le_iff.mpr shallow⟩

end XmlTemplate.Format
