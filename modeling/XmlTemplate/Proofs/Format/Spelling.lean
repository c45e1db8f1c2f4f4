import XmlTemplate.Proofs.Format.Lexical
import XmlTemplate.Proofs.Format.Stream
import XmlTemplate.Proofs.Result
import XmlTemplate.Template.Spelling

/-!
# Tokens and their spelling

The tokens of a format are tokens that can be written one after another: no bare word stands next to
another one. All sequences of this kind are the tokens of a format, which spells them.

Results:
1. `denotes_word`: a text as messages show it is one token of this text.
2. `spellable_of_tokens`: the tokens of a format can be spelled.
3. `offset_le_of_tokens`: they lie within the format.
4. `scan_spelled`: tokens that can be spelled are the tokens of their spelling.
-/

namespace XmlTemplate.Format

open Result (map_eq_ok)

/-! ## Tokens that can be spelled -/

/-- Tokens that can be written one after another: a bare word consists of bare characters and is not
followed by another one. -/
def Spellable : List Token → Prop
  | [] => True
  | .bare word :: rest =>
    isBareWord word = true ∧ (∀ next, rest.head? ≠ some (.bare next)) ∧ Spellable rest
  | _ :: rest => Spellable rest

/-- The characters of a token in a format. -/
def Token.spelled : Token → List Char
  | .less => ['<']
  | .greater => ['>']
  | .ampersand => ['&']
  | .equals => ['=']
  | .dot => ['.']
  | .question => ['?']
  | .star => ['*']
  | .tilde => ['~']
  | .openBrace => ['\x7b']
  | .closeBrace => ['\x7d']
  | .bare word => word.toList
  | .quoted text => (quote text).toList

/-- A token that stands for a text: a word of bare characters, or anything in quotes. -/
inductive Token.Denotes : Token → String → Prop
  | bare {word : String} : isBareWord word = true → Denotes (.bare word) word
  | quoted (text : String) : Denotes (.quoted text) text

/-- The token that a text is written as. -/
def Token.ofText (text : String) : Token := if isBareWord text then .bare text else .quoted text

theorem Token.denotes_ofText (text : String) : (Token.ofText text).Denotes text := by
  unfold Token.ofText
  split
  · rename_i bare
    exact .bare bare
  · exact .quoted text

theorem Token.spelled_ofText (text : String) : (Token.ofText text).spelled = (word text).toList := by
  unfold Token.ofText word
  split <;> rfl

theorem denotes_word (text : String) :
    ∃ token, Token.Denotes token text ∧ token.spelled = (word text).toList :=
  ⟨.ofText text, Token.denotes_ofText text, Token.spelled_ofText text⟩

theorem spellable_sign {c : Char} {token : Token} (sign : Token.sign? c = some token)
    {rest : List Token} : Spellable (token :: rest) ↔ Spellable rest := by
  unfold Token.sign? at sign
  split at sign <;> cases sign <;> rfl

/-- Without bare words there is nothing to keep apart. -/
theorem spellable_of_forall_ne_bare {sequence : List Token}
    (other : ∀ token ∈ sequence, ∀ word, token ≠ .bare word) : Spellable sequence := by
  induction sequence with
  | nil => trivial
  | cons token rest ih =>
    have spellable := ih fun token member => other token (by simp [member])
    cases token with
    | bare word => exact absurd rfl (other _ (by simp) word)
    | _ => exact spellable

theorem spellable_append {front back : List Token} (first : Spellable front)
    (second : Spellable back) (other : ∀ word, back.head? ≠ some (.bare word)) :
    Spellable (front ++ back) := by
  induction front with
  | nil => exact second
  | cons token rest ih =>
    cases token with
    | bare word =>
      obtain ⟨whole, apart, more⟩ := first
      refine ⟨whole, ?_, ih more⟩
      cases rest with
      | nil => exact other
      | cons next rest => exact apart
    | _ => exact ih first

/-- A token that stands for a text can stand in front of a sign. -/
theorem spellable_between {token : Token} {text : String} (denotes : Token.Denotes token text)
    {rest : List Token} (other : ∀ word, rest.head? ≠ some (.bare word)) (spellable : Spellable rest) :
    Spellable (token :: rest) := by
  cases denotes with
  | bare bare => exact ⟨bare, other, spellable⟩
  | quoted => exact spellable

theorem spellable_of_append {front back : List Token} (whole : Spellable (front ++ back)) :
    Spellable front := by
  induction front with
  | nil => trivial
  | cons token rest ih =>
    cases token with
    | bare word =>
      obtain ⟨bare, apart, more⟩ := whole
      refine ⟨bare, ?_, ih more⟩
      cases rest with
      | nil => simp
      | cons next rest => exact apart
    | _ => exact ih whole

/-! ## Tokens of a format -/

theorem isBareWord_singleton {c : Char} (bare : isBare c = true) : isBareWord c.toString = true := by
  simp [isBareWord, bare]

theorem isBareWord_append {c : Char} {word : String} (bare : isBare c = true)
    (more : isBareWord word = true) : isBareWord (c.toString ++ word) = true := by
  simp_all [isBareWord]

/-- A bare character extends a bare word or becomes one. -/
theorem spellable_extend {c : Char} (bare : isBare c = true) (offset : Nat) {tokens : Tokens}
    (spellable : Spellable tokens.sequence) : Spellable (tokens.extend c offset).sequence := by
  unfold Tokens.extend
  split
  · obtain ⟨word, other, rest⟩ := spellable
    exact ⟨isBareWord_append bare word, other, rest⟩
  · rename_i alone
    refine ⟨isBareWord_singleton bare, ?_, spellable⟩
    intro word next
    rw [sequence_head?] at next
    cases tokens with
    | done offset => cases next
    | next token place rest =>
      cases next
      exact alone word place rest rfl

theorem spellable_of_scan {chars : List Char} (clean : Clean chars) {offset : Nat}
    {stream : Tokens} (scanned : scan offset chars = .ok stream) : Spellable stream.sequence := by
  induction clean generalizing offset stream with
  | nil =>
    cases scanned
    trivial
  | sign sign clean ih =>
    rw [scan_sign sign] at scanned
    obtain ⟨rest, found, rfl⟩ := map_eq_ok.mp scanned
    exact (spellable_sign sign).mpr (ih found)
  | bare bare clean ih =>
    rw [scan_bare bare] at scanned
    obtain ⟨rest, found, rfl⟩ := map_eq_ok.mp scanned
    exact spellable_extend bare offset (ih found)
  | quoted inside clean ih =>
    rw [scan_quoted inside] at scanned
    obtain ⟨rest, found, rfl⟩ := map_eq_ok.mp scanned
    show Spellable rest.sequence
    exact ih found

theorem mem_toList_extend {c : Char} {offset : Nat} {tokens : Tokens} {entry : Option Token × Nat}
    (member : entry ∈ (tokens.extend c offset).toList) :
    entry.2 = offset ∨ entry ∈ tokens.toList := by
  unfold Tokens.extend at member
  split at member <;> rcases List.mem_cons.mp member with rfl | member
  · exact .inl rfl
  · exact .inr (List.mem_cons_of_mem _ member)
  · exact .inl rfl
  · exact .inr member

theorem offset_le_of_scan {chars : List Char} (clean : Clean chars) {offset : Nat}
    {stream : Tokens} (scanned : scan offset chars = .ok stream) {entry : Option Token × Nat}
    (member : entry ∈ stream.toList) : entry.2 ≤ offset + chars.length := by
  induction clean generalizing offset stream with
  | nil =>
    cases scanned
    simp [Tokens.toList] at member
    simp [member]
  | sign sign clean ih =>
    rw [scan_sign sign] at scanned
    obtain ⟨rest, found, rfl⟩ := map_eq_ok.mp scanned
    rcases List.mem_cons.mp member with rfl | later
    · exact Nat.le_add_right ..
    · have bound := ih found later
      rw [List.length_cons]
      omega
  | bare bare clean ih =>
    rw [scan_bare bare] at scanned
    obtain ⟨rest, found, rfl⟩ := map_eq_ok.mp scanned
    rcases mem_toList_extend member with here | later
    · rw [here]
      exact Nat.le_add_right ..
    · have bound := ih found later
      rw [List.length_cons]
      omega
  | quoted inside clean ih =>
    rw [scan_quoted inside] at scanned
    obtain ⟨rest, found, rfl⟩ := map_eq_ok.mp scanned
    rcases List.mem_cons.mp member with rfl | later
    · exact Nat.le_add_right ..
    · have bound := ih found later
      simp only [List.length_cons, List.length_append, List.length_nil] at bound ⊢
      omega

theorem spellable_of_tokens {format : List Char} {stream : Tokens}
    (scanned : tokens format = .ok stream) : Spellable stream.sequence :=
  spellable_of_scan (clean_of_tokens scanned) scanned

theorem offset_le_of_tokens {format : List Char} {stream : Tokens}
    (scanned : tokens format = .ok stream) {entry : Option Token × Nat}
    (member : entry ∈ stream.toList) : entry.2 ≤ format.length := by
  have bound := offset_le_of_scan (clean_of_tokens scanned) scanned member
  rwa [Nat.zero_add] at bound

/-! ## Spelling -/

theorem body_escaped (text : List Char) : Body (text.flatMap escaped) text := by
  induction text with
  | nil => exact .nil
  | cons c text ih =>
    rw [List.flatMap_cons]
    unfold escaped
    split
    · exact .escape rfl ih
    · exact .escape rfl ih
    · exact .escape rfl ih
    · exact .escape rfl ih
    · rename_i quote backslash tab newline
      exact .plain quote backslash ih

theorem scan_word {chars rest : List Char} {offset : Nat} {stream : Tokens}
    (present : chars ≠ []) (bare : ∀ c ∈ chars, isBare c = true)
    (other : ∀ word, stream.first? ≠ some (.bare word))
    (scanned : scan (offset + chars.length) rest = .ok stream) :
    scan offset (chars ++ rest) = .ok (.next (.bare (String.ofList chars)) offset stream) := by
  induction chars generalizing offset with
  | nil => exact absurd rfl present
  | cons c chars ih =>
    have first := bare c (by simp)
    rw [List.cons_append, scan_bare first]
    cases chars with
    | nil =>
      rw [List.nil_append, show scan (offset + 1) rest = .ok stream from scanned, Except.map,
        Tokens.extend_of_ne other]
      rfl
    | cons next chars =>
      -- the characters after the first are a word already, which the first one joins
      have more : scan (offset + 1) (next :: chars ++ rest) =
          .ok (.next (.bare (String.ofList (next :: chars))) (offset + 1) stream) := by
        refine ih (by simp) (fun c member => bare c (by simp [member])) ?_
        rw [← scanned, List.length_cons, List.length_cons, List.length_cons]
        congr 1
        omega
      rw [more, Except.map, Tokens.extend_next_bare]
      simp

/-- A sign spells itself. -/
theorem sign_of_spelled {token : Token} (bare : ∀ word, token ≠ .bare word)
    (quoted : ∀ text, token ≠ .quoted text) :
    ∃ c, token.spelled = [c] ∧ Token.sign? c = some token := by
  cases token with
  | bare word => exact absurd rfl (bare word)
  | quoted text => exact absurd rfl (quoted text)
  | _ => exact ⟨_, rfl, rfl⟩

/-- Tokens that can be spelled are the tokens of their spelling. -/
theorem scan_spelled {sequence : List Token} (spellable : Spellable sequence) (offset : Nat) :
    ∃ stream, scan offset (sequence.flatMap Token.spelled) = .ok stream ∧
      stream.sequence = sequence := by
  induction sequence generalizing offset with
  | nil => exact ⟨.done offset, rfl, rfl⟩
  | cons token rest ih =>
    rw [List.flatMap_cons]
    by_cases bare : ∃ word, token = .bare word
    · obtain ⟨word, rfl⟩ := bare
      obtain ⟨whole, other, spellable⟩ := spellable
      obtain ⟨stream, scanned, rfl⟩ := ih spellable (offset + word.toList.length)
      refine ⟨.next (.bare word) offset stream, ?_, rfl⟩
      rw [isBareWord, Bool.and_eq_true, List.all_eq_true] at whole
      have read := scan_word (by simpa using whole.1) whole.2
        (fun next => sequence_head? stream ▸ other next) scanned
      rwa [String.ofList_toList] at read
    by_cases quoted : ∃ text, token = .quoted text
    · obtain ⟨text, rfl⟩ := quoted
      have spelled : (Token.quoted text).spelled = '"' :: (text.toList.flatMap escaped ++ ['"']) := by
        rw [Token.spelled, quote, String.toList_ofList]
      obtain ⟨stream, scanned, rfl⟩ := ih spellable (offset + (Token.quoted text).spelled.length)
      refine ⟨.next (.quoted text) offset stream, ?_, rfl⟩
      have read := scan_quoted (body_escaped text.toList) offset
        (stream.sequence.flatMap Token.spelled)
      rw [← spelled, scanned, String.ofList_toList] at read
      rw [spelled]
      simpa [Except.map] using read
    · obtain ⟨c, spelled, sign⟩ := sign_of_spelled (not_exists.mp bare) (not_exists.mp quoted)
      obtain ⟨stream, scanned, rfl⟩ := ih ((spellable_sign sign).mp spellable) (offset + 1)
      refine ⟨.next token offset stream, ?_, rfl⟩
      rw [spelled, List.singleton_append, scan_sign sign, scanned]
      rfl

end XmlTemplate.Format
