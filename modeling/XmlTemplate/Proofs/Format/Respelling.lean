import XmlTemplate.Proofs.Format.Acceptance
import XmlTemplate.Proofs.Format.Seams

/-!
# Bare words in quotes

A bare word and the same text in quotes are different tokens of one meaning, except where a word of
digits is a number: after a dot it is an index and after a star a count. Wherever a format has another
bare word, the format with this word in quotes compiles to the same template.

Results:
1. `respelled_nested`, `respelled_anyNode`: phrases are phrases with bare words in quotes.
2. `scan_eq_next_bare`: a bare word is spelled by its characters.
3. `scan_requoted`: the tokens of a format in which a bare word is put into quotes.
4. `compile_requoted`: the template of such a format.
-/

namespace XmlTemplate.Format.Grammar

/-! ## Bare words and quoted texts -/

/-- A number at the front stays a number. -/
def KeepsNumber (tokens other : List Token) : Prop :=
  ∀ word, isDigits word = true → tokens.head? = some (.bare word) → other.head? = some (.bare word)

/-- Some of the bare words are put into quotes, but no index and no count. -/
inductive Respelled : List Token → List Token → Prop
  | nil : Respelled [] []
  | same {tokens other : List Token} (token : Token) :
      (token = .dot ∨ token = .star → KeepsNumber tokens other) → Respelled tokens other →
      Respelled (token :: tokens) (token :: other)
  | quoted {tokens other : List Token} (word : String) :
      Respelled tokens other → Respelled (.bare word :: tokens) (.quoted word :: other)

theorem Respelled.refl (tokens : List Token) : Respelled tokens tokens := by
  induction tokens with
  | nil => exact .nil
  | cons token tokens ih => exact .same token (fun _ _ _ starts => starts) ih

/-- A word of digits right after a dot or a star is an index or a count. -/
def IsNumber (before : List Token) (word : String) : Prop :=
  isDigits word = true ∧ (before.getLast? = some .dot ∨ before.getLast? = some .star)

instance (before : List Token) (word : String) : Decidable (IsNumber before word) :=
  inferInstanceAs (Decidable (_ ∧ _))

/-- One word is put into quotes. -/
theorem respelled_append {word : String} {before : List Token} (text : ¬ IsNumber before word)
    (after : List Token) :
    Respelled (before ++ .bare word :: after) (before ++ .quoted word :: after) := by
  induction before with
  | nil => exact .quoted word (.refl after)
  | cons token before ih =>
    cases before with
    | nil =>
      have nothing : ¬ IsNumber [] word := by simp [IsNumber]
      refine .same token (fun sign number digits starts => ?_) (ih nothing)
      cases starts
      exact absurd ⟨digits, by simpa using sign⟩ text
    | cons next before =>
      refine .same token (fun sign number digits starts => starts) (ih fun number => text ?_)
      exact ⟨number.1, by simpa using number.2⟩

variable {token : Token} {word : String} {tokens other rest : List Token}

theorem Respelled.sign (respelled : Respelled (token :: tokens) other)
    (sign : ∀ word, token ≠ .bare word) :
    ∃ more, other = token :: more ∧ Respelled tokens more ∧
      (token = .dot ∨ token = .star → KeepsNumber tokens more) := by
  cases respelled with
  | same token kept respelled => exact ⟨_, rfl, respelled, kept⟩
  | quoted word respelled => exact absurd rfl (sign word)

theorem Respelled.bare (respelled : Respelled (.bare word :: tokens) other) :
    ∃ more, Respelled tokens more ∧ (other = .bare word :: more ∨ other = .quoted word :: more) := by
  cases respelled with
  | same token kept respelled => exact ⟨_, respelled, .inl rfl⟩
  | quoted word respelled => exact ⟨_, respelled, .inr rfl⟩

/-- Whatever tokens are a phrase for, they are one for it with bare words in quotes as well. -/
def Respells {α : Type} (phrase : List Token → α → List Token → Prop) : Prop :=
  ∀ ⦃tokens other rest : List Token⦄ ⦃x : α⦄, phrase tokens x rest → Respelled tokens other →
    ∃ left, phrase other x left ∧ Respelled rest left

/-! ## Expressions -/

theorem Segment.respelled : Respells Segment := by
  intro tokens other rest step phrase respelled
  cases phrase with
  | index rest digits =>
    obtain ⟨more, rfl, respelled, kept⟩ := respelled.sign (by simp)
    have number := kept (.inl rfl) _ digits rfl
    obtain ⟨left, others, rfl | rfl⟩ := respelled.bare
    · exact ⟨left, .index left digits, others⟩
    · cases number
  | @key word rest digits =>
    obtain ⟨more, rfl, respelled, -⟩ := respelled.sign (by simp)
    obtain ⟨left, others, rfl | rfl⟩ := respelled.bare
    · exact ⟨left, .key left digits, others⟩
    · exact ⟨left, .quoted word left, others⟩
  | quoted text rest =>
    obtain ⟨more, rfl, respelled, -⟩ := respelled.sign (by simp)
    obtain ⟨left, rfl, respelled, -⟩ := respelled.sign (by simp)
    exact ⟨left, .quoted text left, respelled⟩

/-- Quotes do not make a segment of what is none. -/
theorem Segment.exists_of_respelled {step : Step} (phrase : Segment other step rest)
    (respelled : Respelled tokens other) : ∃ step after, Segment tokens step after := by
  cases phrase with
  | index rest digits | key rest digits =>
    rcases respelled with _ | ⟨_, _, _ | _⟩
    exact ⟨_, _, segment_stepOfBare _ _⟩
  | quoted text rest =>
    rcases respelled with _ | ⟨_, _, _ | _ | _⟩
    · exact ⟨_, _, .quoted text _⟩
    · exact ⟨_, _, segment_stepOfBare text _⟩

theorem Segments.respelled : Respells (Segments true) := by
  intro tokens other rest steps phrase respelled
  induction phrase generalizing other with
  | nil stops =>
    refine ⟨other, .nil fun longest => ?_, respelled⟩
    rintro ⟨step, after, phrase⟩
    exact stops longest (phrase.exists_of_respelled respelled)
  | cons first others ih =>
    obtain ⟨middle, one, respelled⟩ := first.respelled respelled
    obtain ⟨left, more, respelled⟩ := ih respelled
    exact ⟨left, .cons one more, respelled⟩

theorem Source.respelled : Respells (Source true) := by
  intro tokens other rest source phrase respelled
  cases phrase with
  | question run =>
    obtain ⟨more, rfl, respelled, -⟩ := respelled.sign (by simp)
    obtain ⟨left, run, respelled⟩ := run.respelled respelled
    exact ⟨left, .question run, respelled⟩
  | segments first run =>
    obtain ⟨middle, first, respelled⟩ := first.respelled respelled
    obtain ⟨left, run, respelled⟩ := run.respelled respelled
    exact ⟨left, .segments first run, respelled⟩

theorem Value.respelled : Respells (Value true) := by
  intro tokens other rest value phrase respelled
  cases phrase with
  | source source =>
    obtain ⟨left, source, respelled⟩ := source.respelled respelled
    exact ⟨left, .source source, respelled⟩
  | bare word =>
    obtain ⟨left, others, rfl | rfl⟩ := respelled.bare
    · exact ⟨left, .bare word left, others⟩
    · exact ⟨left, .quoted word left, others⟩
  | quoted text =>
    obtain ⟨left, rfl, respelled, -⟩ := respelled.sign (by simp)
    exact ⟨left, .quoted text left, respelled⟩

/-! ## Parts of an element -/

theorem Repeats.respelled {repetition : Repetition} (phrase : Repeats true tokens repetition rest)
    (respelled : Respelled tokens other) (kept : KeepsNumber tokens other) :
    ∃ left, Repeats true other repetition left ∧ Respelled rest left := by
  cases phrase with
  | count rest digits small =>
    have number := kept _ digits rfl
    obtain ⟨left, others, rfl | rfl⟩ := respelled.bare
    · exact ⟨left, .count left digits small, others⟩
    · cases number
  | items source =>
    obtain ⟨left, source, respelled⟩ := source.respelled respelled
    exact ⟨left, .items source, respelled⟩

theorem Tag.respelled : Respells (Tag true) := by
  intro tokens other rest tag phrase respelled
  cases phrase with
  | entries source =>
    obtain ⟨more, rfl, respelled, -⟩ := respelled.sign (by simp)
    obtain ⟨left, source, respelled⟩ := source.respelled respelled
    exact ⟨left, .entries source, respelled⟩
  | once name =>
    obtain ⟨left, name, respelled⟩ := name.respelled respelled
    exact ⟨left, .once name, respelled⟩
  | repeated name repetition =>
    obtain ⟨middle, name, respelled⟩ := name.respelled respelled
    obtain ⟨more, rfl, respelled, kept⟩ := respelled.sign (by simp)
    obtain ⟨left, repetition, respelled⟩ := repetition.respelled respelled (kept (.inr rfl))
    exact ⟨left, .repeated name repetition, respelled⟩

theorem Pairing.respelled : Respells (Pairing true) := by
  intro tokens other rest item phrase respelled
  cases phrase with
  | both name value =>
    obtain ⟨more, rfl, respelled, -⟩ := respelled.sign (by simp)
    obtain ⟨middle, name, respelled⟩ := name.respelled respelled
    obtain ⟨left, value, respelled⟩ := value.respelled respelled
    exact ⟨left, .both name value, respelled⟩
  | nameOnly name =>
    obtain ⟨more, rfl, respelled, -⟩ := respelled.sign (by simp)
    obtain ⟨left, name, respelled⟩ := name.respelled respelled
    exact ⟨left, .nameOnly name, respelled⟩

theorem Content.respelled : Respells (Content true) := by
  intro tokens other rest node phrase respelled
  cases phrase with
  | bare word =>
    obtain ⟨left, others, rfl | rfl⟩ := respelled.bare
    · exact ⟨left, .bare word left, others⟩
    · exact ⟨left, .quoted word left, others⟩
  | quoted text =>
    obtain ⟨left, rfl, respelled, -⟩ := respelled.sign (by simp)
    exact ⟨left, .quoted text left, respelled⟩
  | source source =>
    obtain ⟨left, source, respelled⟩ := source.respelled respelled
    exact ⟨left, .source source, respelled⟩

/-! ## Nodes -/

theorem Many.respelled {α : Type} {phrase : List Token → α → List Token → Prop}
    (each : Respells phrase) : Respells (Many phrase) := by
  intro tokens other rest xs many respelled
  induction many generalizing other with
  | nil rest => exact ⟨other, .nil other, respelled⟩
  | cons first others ih =>
    obtain ⟨middle, one, respelled⟩ := each first respelled
    obtain ⟨left, more, respelled⟩ := ih respelled
    exact ⟨left, .cons one more, respelled⟩

mutual
-- the recursion is on the node, which the phrases inside have smaller ones for
theorem respelled_nested {tokens other rest : List Token} {node : Node}
    (phrase : Nested true tokens node rest) (respelled : Respelled tokens other) :
    ∃ left, Nested true other node left ∧ Respelled rest left := by
  cases phrase with
  | content tag attributes child =>
    obtain ⟨tokens, rfl, respelled, -⟩ := respelled.sign (by simp)
    obtain ⟨afterTag, tag, respelled⟩ := tag.respelled respelled
    obtain ⟨afterAttributes, attributes, respelled⟩ :=
      Many.respelled Pairing.respelled attributes respelled
    obtain ⟨inside, rfl, respelled, -⟩ := respelled.sign (by simp)
    obtain ⟨afterChild, child, respelled⟩ := child.respelled respelled
    obtain ⟨left, rfl, respelled, -⟩ := respelled.sign (by simp)
    exact ⟨left, .content tag attributes child, respelled⟩
  | children tag attributes nodes =>
    obtain ⟨tokens, rfl, respelled, -⟩ := respelled.sign (by simp)
    obtain ⟨afterTag, tag, respelled⟩ := tag.respelled respelled
    obtain ⟨afterAttributes, attributes, respelled⟩ :=
      Many.respelled Pairing.respelled attributes respelled
    obtain ⟨afterNodes, nodes, respelled⟩ := respelled_nestedAll nodes respelled
    obtain ⟨left, rfl, respelled, -⟩ := respelled.sign (by simp)
    exact ⟨left, .children tag attributes nodes, respelled⟩
  | scope source nodes =>
    obtain ⟨tokens, rfl, respelled, -⟩ := respelled.sign (by simp)
    obtain ⟨afterSource, source, respelled⟩ := source.respelled respelled
    obtain ⟨afterNodes, nodes, respelled⟩ := respelled_anyNodeAll nodes respelled
    obtain ⟨left, rfl, respelled, -⟩ := respelled.sign (by simp)
    exact ⟨left, .scope source nodes, respelled⟩

theorem respelled_nestedAll {tokens other rest : List Token} {nodes : List Node}
    (phrases : Many (Nested true) tokens nodes rest) (respelled : Respelled tokens other) :
    ∃ left, Many (Nested true) other nodes left ∧ Respelled rest left := by
  cases phrases with
  | nil rest => exact ⟨other, .nil other, respelled⟩
  | cons first others =>
    obtain ⟨middle, one, respelled⟩ := respelled_nested first respelled
    obtain ⟨left, more, respelled⟩ := respelled_nestedAll others respelled
    exact ⟨left, .cons one more, respelled⟩

theorem respelled_anyNode {tokens other rest : List Token} {node : Node}
    (phrase : AnyNode true tokens node rest) (respelled : Respelled tokens other) :
    ∃ left, AnyNode true other node left ∧ Respelled rest left := by
  cases phrase with
  | nested phrase =>
    obtain ⟨left, phrase, respelled⟩ := respelled_nested phrase respelled
    exact ⟨left, .nested phrase, respelled⟩
  | content phrase =>
    obtain ⟨more, rfl, respelled, -⟩ := respelled.sign (by simp)
    obtain ⟨left, phrase, respelled⟩ := phrase.respelled respelled
    exact ⟨left, .content phrase, respelled⟩

theorem respelled_anyNodeAll {tokens other rest : List Token} {nodes : List Node}
    (phrases : Many (AnyNode true) tokens nodes rest) (respelled : Respelled tokens other) :
    ∃ left, Many (AnyNode true) other nodes left ∧ Respelled rest left := by
  cases phrases with
  | nil rest => exact ⟨other, .nil other, respelled⟩
  | cons first others =>
    obtain ⟨middle, one, respelled⟩ := respelled_anyNode first respelled
    obtain ⟨left, more, respelled⟩ := respelled_anyNodeAll others respelled
    exact ⟨left, .cons one more, respelled⟩
end

/-- A document is one for the same nodes with bare words in quotes. -/
theorem Document.respelled {nodes : List Node} (phrases : Document true tokens nodes)
    (respelled : Respelled tokens other) : Document true other nodes := by
  obtain ⟨left, phrases, respelled⟩ := respelled_anyNodeAll phrases respelled
  cases respelled
  exact phrases

end XmlTemplate.Format.Grammar

/-! ## Formats -/

namespace XmlTemplate.Format

open Result (map_eq_ok)

/-- Tokens with their offsets in front of the tokens that are left. -/
def Tokens.prepend : List (Token × Nat) → Tokens → Tokens
  | [], rest => rest
  | (token, offset) :: before, rest => .next token offset (prepend before rest)

theorem sequence_prepend (before : List (Token × Nat)) (rest : Tokens) :
    (Tokens.prepend before rest).sequence = before.map Prod.fst ++ rest.sequence := by
  induction before with
  | nil => rfl
  | cons placed before ih => exact congrArg (List.cons placed.1) ih

theorem suffix_prepend (before : List (Token × Nat)) (rest : Tokens) :
    rest.toList <:+ (Tokens.prepend before rest).toList := by
  induction before with
  | nil => exact List.suffix_refl _
  | cons placed before ih => exact suffix_toList_next.mpr (.inr ih)

/-- A bare word is spelled by its characters. -/
theorem scan_eq_next_bare {chars : List Char} (clean : Clean chars) {offset place : Nat}
    {word : String} {after : Tokens}
    (scanned : scan offset chars = .ok (.next (.bare word) place after)) :
    ∃ rest, chars = word.toList ++ rest ∧ Clean rest ∧
      scan (offset + word.toList.length) rest = .ok after := by
  induction clean generalizing offset place word with
  | nil => cases scanned
  | @sign c token chars sign clean ih =>
    rw [scan_sign sign] at scanned
    obtain ⟨stream, found, same⟩ := map_eq_ok.mp scanned
    cases same
    unfold Token.sign? at sign
    split at sign <;> cases sign
  | @bare c chars bare clean ih =>
    rw [scan_bare bare] at scanned
    obtain ⟨stream, found, same⟩ := map_eq_ok.mp scanned
    unfold Tokens.extend at same
    split at same
    · cases same
      obtain ⟨rest, rfl, apart, more⟩ := ih found
      refine ⟨rest, by simp, apart, ?_⟩
      rw [← more]
      congr 1
      simp
      omega
    · cases same
      exact ⟨chars, by simp, clean, by simpa using found⟩
  | quoted inside clean ih =>
    rw [scan_quoted inside] at scanned
    obtain ⟨stream, found, same⟩ := map_eq_ok.mp scanned
    cases same

/-- Where a format has a bare word, the format with this word in quotes has a quoted token. -/
theorem scan_requoted {format : List Char} {stream after : Tokens} {before : List (Token × Nat)}
    {word : String} {offset : Nat} (scanned : tokens format = .ok stream)
    (shape : stream = .prepend before (.next (.bare word) offset after)) :
    ∃ front back other, format = front ++ (word.toList ++ back) ∧ front.length = offset ∧
      tokens (front ++ ((quote word).toList ++ back)) = .ok other ∧
      other.sequence = before.map Prod.fst ++ .quoted word :: after.sequence := by
  have clean := clean_of_tokens scanned
  have tail : (Tokens.next (.bare word) offset after).toList <:+ stream.toList :=
    shape ▸ suffix_prepend before _
  obtain ⟨front, back, first, rfl, apart, scannedFront, scannedBack, split⟩ :=
    scan_split clean scanned tail
  obtain ⟨rest, rfl, cleanRest, scannedRest⟩ := scan_eq_next_bare apart scannedBack
  have place := offset_of_scan apart scannedBack
  -- the tokens before the word are those of the characters before it
  rw [shape, sequence_prepend] at split
  have same := List.append_cancel_right split
  have quoted := scan_quoted (body_escaped word.toList) (0 + front.length) rest
  obtain ⟨moved, shifted, again⟩ := scan_shift cleanRest scannedRest
    (0 + front.length + ('"' :: (word.toList.flatMap escaped ++ ['"'])).length)
  rw [shifted, String.ofList_toList] at quoted
  obtain ⟨other, whole, joined, -⟩ :=
    scan_seam (clean_of_tokens scannedFront) scannedFront quoted (by simp [Tokens.first?])
  refine ⟨front, rest, other, rfl, ?_, ?_, ?_⟩
  · rw [← Nat.zero_add front.length, ← place]
    rfl
  · rw [← whole]
    simp [tokens, quote]
  · rw [joined, same, ← again]
    rfl

end XmlTemplate.Format

namespace XmlTemplate.Template

open Format Format.Grammar

/-- Every bare word of a format that compiles stands at its offset. Unless it is an index or a count,
the format with this word in quotes compiles to the same template. -/
theorem compile_requoted {format : String} {template : Template}
    (compiled : compile format = .ok template) :
    ∃ stream, Format.tokens format.toList = .ok stream ∧
      ∀ before word offset after, stream = .prepend before (.next (.bare word) offset after) →
        ∃ front back, format = front ++ word ++ back ∧ front.length = offset ∧
          (¬ IsNumber (before.map Prod.fst) word →
            compile (front ++ quote word ++ back) = .ok template) := by
  obtain ⟨stream, scanned, phrases, shallow⟩ := compile_eq_ok_iff_document.mp compiled
  refine ⟨stream, scanned, fun before word offset after shape => ?_⟩
  obtain ⟨front, back, other, whole, place, requoted, sequence⟩ := scan_requoted scanned shape
  refine ⟨.ofList front, .ofList back, ?_, by rw [String.length_ofList, place], fun text => ?_⟩
  · apply String.toList_injective
    simp [whole]
  · refine compile_eq_ok_iff_document.mpr ⟨other, ?_, ?_, shallow⟩
    · rw [← requoted]
      simp
    · rw [shape, sequence_prepend] at phrases
      rw [sequence]
      exact phrases.respelled (respelled_append text _)

/-- A key and a content of digits may as well stand in quotes. A count may not, and an index in quotes
is a key. -/
theorem compile_requoted_digits :
    let template (last : Step) : Template :=
      ⟨[.element ⟨.literal "a", some (.times 7),
        [⟨.literal "b", .chain .current [.key "c", last]⟩]⟩ [.text "0"]]⟩
    (∃ front back, "<a*07=b.c.1&0>" = front ++ "c" ++ back ∧ front.length = 8 ∧
      compile (front ++ quote "c" ++ back) = .ok (template (.index "1"))) ∧
    (∃ front back, "<a*07=b.c.1&0>" = front ++ "0" ++ back ∧ front.length = 12 ∧
      compile (front ++ quote "0" ++ back) = .ok (template (.index "1"))) ∧
    compile "<a*07=b.c.\"1\"&0>" = .ok (template (.key "1")) ∧
    compile "<a*\"07\"=b.c.1&0>" =
      .error ⟨⟨3, .repetitionSource, .token (.quoted "07")⟩, "<a*\"07\"=b.c.1"⟩ := by
  intro template
  have compiled : compile "<a*07=b.c.1&0>" = .ok (template (.index "1")) := by rfl
  obtain ⟨stream, scanned, each⟩ := compile_requoted compiled
  let head : List (Token × Nat) :=
    [(.less, 0), (.bare "a", 1), (.star, 2), (.bare "07", 3), (.equals, 5), (.bare "b", 6), (.dot, 7)]
  let value : List (Token × Nat) := [(.bare "c", 8), (.dot, 9), (.bare "1", 10), (.ampersand, 11)]
  let content : Tokens := .next (.bare "0") 12 (.next .greater 13 (.done 14))
  have whole : Format.tokens "<a*07=b.c.1&0>".toList = .ok (.prepend (head ++ value) content) := by rfl
  cases scanned.symm.trans whole
  obtain ⟨front, back, key, place, requoted⟩ := each head "c" 8 (.prepend value.tail content) rfl
  obtain ⟨first, last, text, after, again⟩ := each (head ++ value) "0" 12 _ rfl
  exact ⟨⟨front, back, key, place, requoted (by decide)⟩,
    ⟨first, last, text, after, again (by decide)⟩, by rfl, by rfl⟩

end XmlTemplate.Template
