import Mathlib.Data.List.Chain
import XmlTemplate.Proofs.Format.Seams

/-!
# How tokens lie on their format

The tokens of a format leave no character out: each of them stands for the characters from its offset
to the next one, which spell it. The other way round, spellings in a row are read as the tokens that
they spell, unless two bare words meet, which are one.

Results:
1. `covers_of_scan`, `Covers.scan_eq`: scanning gives the tokens that cover the characters, and no
   others.
2. `Covers.tiles`: tokens that cover a format have strictly increasing offsets up to its end.
3. `tokens_tile`: the tokens of a format tile it, and spellings in a row are a format for their tokens.
-/

namespace XmlTemplate.Format

open Result (map_eq_ok)

/-! ## Spellings -/

/-- A token without quotes that is no sign. -/
def Token.IsBare : Token → Prop
  | .bare _ => True
  | _ => False

/-- The characters that spell a token. A text in quotes has several spellings, since some characters
may be escaped or not. -/
def Token.Spells : Token → List Char → Prop
  | .bare word, chars => chars = word.toList ∧ chars ≠ [] ∧ ∀ c ∈ chars, isBare c = true
  | .quoted text, chars => ∃ body, Body body text.toList ∧ chars = '"' :: (body ++ ['"'])
  | sign, chars => chars = sign.spelled

/-- No two bare words stand next to each other. -/
def Separate (sequence : List Token) : Prop :=
  sequence.IsChain fun token next => ¬ (token.IsBare ∧ next.IsBare)

theorem Token.spells_sign {c : Char} {token : Token} (sign : Token.sign? c = some token) :
    token.Spells [c] := by
  unfold Token.sign? at sign
  split at sign <;> cases sign <;> rfl

/-- A token is a bare word, a text in quotes or a sign. -/
theorem Token.Spells.cases {token : Token} {chars : List Char} (spells : token.Spells chars) :
    (∃ word, token = .bare word ∧ chars = word.toList ∧ chars ≠ [] ∧ ∀ c ∈ chars, isBare c = true) ∨
      (∃ text body, token = .quoted text ∧ Body body text.toList ∧ chars = '"' :: (body ++ ['"'])) ∨
        ∃ c, Token.sign? c = some token ∧ chars = [c] := by
  cases token with
  | bare word => exact .inl ⟨word, rfl, spells⟩
  | quoted text =>
    obtain ⟨body, inside, shape⟩ := spells
    exact .inr (.inl ⟨text, body, rfl, inside, shape⟩)
  | _ => exact .inr (.inr ⟨_, rfl, spells⟩)

theorem Token.Spells.length_pos {token : Token} {chars : List Char} (spells : token.Spells chars) :
    0 < chars.length := by
  obtain ⟨word, rfl, rfl, present, bare⟩ | ⟨text, body, rfl, inside, rfl⟩ | ⟨c, sign, rfl⟩ :=
    spells.cases
  · exact List.length_pos_iff.mpr present
  · simp
  · simp

/-! ## Tokens that cover characters -/

/-- The tokens stand for the characters from an offset on, each of them for the next ones. -/
inductive Covers : Nat → List Char → Tokens → Prop
  | done (offset : Nat) : Covers offset [] (.done offset)
  | next {offset : Nat} {token : Token} {spelling chars : List Char} {rest : Tokens} :
      token.Spells spelling →
      (token.IsBare → ∀ word, rest.first? ≠ some (.bare word)) →
      Covers (offset + spelling.length) chars rest →
      Covers offset (spelling ++ chars) (.next token offset rest)

/-- A bare character in front is a word or the first character of one. -/
theorem Covers.extend {c : Char} (bare : isBare c = true) {offset : Nat} {chars : List Char}
    {tokens : Tokens} (covers : Covers (offset + 1) chars tokens) :
    Covers offset (c :: chars) (tokens.extend c offset) := by
  have alone (other : ∀ word, tokens.first? ≠ some (.bare word)) :
      Covers offset (c :: chars) (tokens.extend c offset) := by
    have spells : (Token.bare c.toString).Spells [c] := ⟨by simp, by simp, by simpa using bare⟩
    rw [Tokens.extend_of_ne other]
    exact .next spells (fun _ => other) covers
  cases covers with
  | done => exact alone nofun
  | @next _ token spelling chars rest spells apart others =>
    by_cases word : ∃ word, token = .bare word
    · obtain ⟨word, rfl⟩ := word
      obtain ⟨shape, present, all⟩ := spells
      have joined : (Token.bare (c.toString ++ word)).Spells (c :: spelling) :=
        ⟨by simp [shape], by simp, by simpa using ⟨bare, all⟩⟩
      rw [Nat.add_assoc, Nat.add_comm 1, ← List.length_cons (a := c)] at others
      exact .next joined apart others
    · refine alone fun other starts => word ⟨other, ?_⟩
      exact Option.some.inj starts

/-- Scanning gives tokens that cover the characters. -/
theorem covers_of_scan {chars : List Char} (clean : Clean chars) {offset : Nat} {stream : Tokens}
    (scanned : scan offset chars = .ok stream) : Covers offset chars stream := by
  induction clean generalizing offset stream with
  | nil =>
    cases scanned
    exact .done offset
  | @sign c token chars sign clean ih =>
    rw [scan_sign sign] at scanned
    obtain ⟨rest, found, rfl⟩ := map_eq_ok.mp scanned
    refine .next (Token.spells_sign sign) (fun bare => ?_) (ih found)
    unfold Token.sign? at sign
    split at sign <;> cases sign <;> cases bare
  | bare bare clean ih =>
    rw [scan_bare bare] at scanned
    obtain ⟨rest, found, rfl⟩ := map_eq_ok.mp scanned
    exact (ih found).extend bare
  | @quoted body text chars inside clean ih =>
    rw [scan_quoted inside] at scanned
    obtain ⟨rest, found, rfl⟩ := map_eq_ok.mp scanned
    have spells : (Token.quoted (String.ofList text)).Spells ('"' :: (body ++ ['"'])) :=
      ⟨body, by simpa using inside, rfl⟩
    have covers := Covers.next spells nofun (ih found)
    simpa using covers

/-- Tokens that cover the characters are the ones that scanning gives. -/
theorem Covers.scan_eq {offset : Nat} {chars : List Char} {stream : Tokens}
    (covers : Covers offset chars stream) : scan offset chars = .ok stream := by
  induction covers with
  | done offset => rfl
  | @next offset token spelling chars rest spells apart covers ih =>
    obtain ⟨word, rfl, rfl, present, bare⟩ | ⟨text, body, rfl, inside, rfl⟩ | ⟨c, sign, rfl⟩ :=
      spells.cases
    · have read := scan_word present bare (apart trivial) ih
      rwa [String.ofList_toList] at read
    · have read := scan_quoted inside offset chars
      rw [ih, String.ofList_toList] at read
      simpa [Except.map] using read
    · rw [List.singleton_append, scan_sign sign, show scan (offset + 1) chars = .ok rest from ih]
      rfl

theorem Covers.offset_eq {offset : Nat} {chars : List Char} {stream : Tokens}
    (covers : Covers offset chars stream) : stream.offset = offset := by
  cases covers <;> rfl

theorem Covers.separate {offset : Nat} {chars : List Char} {stream : Tokens}
    (covers : Covers offset chars stream) : Separate stream.sequence := by
  induction covers with
  | done offset => exact .nil
  | @next offset token spelling chars rest spells apart covers ih =>
    refine List.isChain_cons.mpr ⟨fun next starts both => ?_, ih⟩
    rw [Option.mem_def, sequence_head?] at starts
    cases next with
    | bare word => exact apart both.1 word starts
    | _ => exact both.2

/-! ## Tilings -/

/-- The tokens tile a format from an offset on. -/
structure Tiles (format : List Char) (start : Nat) (stream : Tokens) : Prop where
  starts : (stream.toList.map Prod.snd).head? = some start
  increasing : (stream.toList.map Prod.snd).Pairwise (· < ·)
  /-- The end of the input stands last and nowhere else, and its offset is the length. -/
  ends : ∀ i offset, stream.toList[i]? = some (none, offset) ↔
    i + 1 = stream.toList.length ∧ offset = format.length
  /-- The characters from the offset of a token to the next offset spell the token. -/
  spelled : ∀ i token offset, stream.toList[i]? = some (some token, offset) →
    ∃ next place, stream.toList[i + 1]? = some (next, place) ∧
      token.Spells ((format.drop offset).take (place - offset))
  separate : Separate stream.sequence

theorem toList_head? (tokens : Tokens) : tokens.toList[0]? = some (tokens.first?, tokens.offset) := by
  cases tokens <;> rfl

/-- Offsets are no smaller than the one at which the tokens start. -/
theorem Covers.le_of_mem {offset : Nat} {chars : List Char} {stream : Tokens}
    (covers : Covers offset chars stream) {place : Nat}
    (member : place ∈ stream.toList.map Prod.snd) : offset ≤ place := by
  induction covers with
  | done offset => simp_all [Tokens.toList]
  | @next offset token spelling chars rest spells apart covers ih =>
    rcases List.mem_cons.mp member with rfl | later
    · exact Nat.le_refl _
    · exact Nat.le_trans (Nat.le_add_right ..) (ih later)

/-- Tokens that cover the end of a format tile it from there on. -/
theorem Covers.tiles {offset : Nat} {chars : List Char} {stream : Tokens}
    (covers : Covers offset chars stream) (front : List Char) (before : front.length = offset) :
    Tiles (front ++ chars) offset stream := by
  induction covers generalizing front with
  | done offset =>
    subst before
    refine ⟨rfl, by simp [Tokens.toList], fun i place => ?_, fun i token place there => ?_, .nil⟩
    · rcases i with _ | i <;> simp [Tokens.toList, eq_comm]
    · rcases i with _ | i <;> simp [Tokens.toList] at there
  | @next offset token spelling chars rest spells apart covers ih =>
    have tail : Tiles (front ++ (spelling ++ chars)) (offset + spelling.length) rest := by
      rw [← List.append_assoc]
      exact ih _ (by rw [List.length_append, before])
    refine ⟨rfl, ?_, fun i place => ?_, fun i other place there => ?_,
      (Covers.next spells apart covers).separate⟩
    · refine List.pairwise_cons.mpr ⟨fun place member => ?_, tail.increasing⟩
      exact Nat.lt_of_lt_of_le (Nat.lt_add_of_pos_right spells.length_pos) (covers.le_of_mem member)
    · cases i with
      | zero => simp [Tokens.toList, toList_length]
      | succ i => simpa [Tokens.toList] using tail.ends i place
    · cases i with
      | zero =>
        cases there
        -- the token after this one starts where the spelling ends
        refine ⟨rest.first?, offset + spelling.length, ?_, ?_⟩
        · rw [← covers.offset_eq]
          exact toList_head? rest
        · rw [Nat.add_sub_cancel_left, ← before, List.drop_left, List.take_left]
          exact spells
      | succ i => exact tail.spelled i other place there

/-- Spellings in a row are covered by their tokens. -/
theorem exists_covers {pieces : List (Token × List Char)}
    (each : ∀ piece ∈ pieces, piece.1.Spells piece.2) (separate : Separate (pieces.map Prod.fst))
    (offset : Nat) :
    ∃ stream, Covers offset (pieces.flatMap Prod.snd) stream ∧
      stream.sequence = pieces.map Prod.fst := by
  induction pieces generalizing offset with
  | nil => exact ⟨.done offset, .done offset, rfl⟩
  | cons piece pieces ih =>
    obtain ⟨apart, separate⟩ := List.isChain_cons.mp separate
    obtain ⟨stream, covers, shape⟩ :=
      ih (fun piece member => each piece (by simp [member])) separate (offset + piece.2.length)
    refine ⟨.next piece.1 offset stream, .next (each piece (by simp)) (fun bare word starts => ?_) covers,
      congrArg (List.cons piece.1) shape⟩
    rw [← sequence_head?, shape] at starts
    exact apart _ starts ⟨bare, trivial⟩

/-- The tokens of a format tile it, and spellings in a row, no two of bare words next to each other, are
a format that has their tokens. -/
theorem tokens_tile (format : List Char) :
    (∀ stream, tokens format = .ok stream → Tiles format 0 stream) ∧
      ∀ pieces : List (Token × List Char), (∀ piece ∈ pieces, piece.1.Spells piece.2) →
        Separate (pieces.map Prod.fst) → format = pieces.flatMap Prod.snd →
        ∃ stream, tokens format = .ok stream ∧ stream.sequence = pieces.map Prod.fst := by
  constructor
  · intro stream scanned
    exact (covers_of_scan (clean_of_tokens scanned) scanned).tiles [] rfl
  · rintro pieces each separate rfl
    obtain ⟨stream, covers, shape⟩ := exists_covers each separate 0
    exact ⟨stream, covers.scan_eq, shape⟩

/-- A sign, a bare word and a text with an escape in a row. -/
theorem tokens_tile_escape :
    ∃ pieces : List (Token × List Char), (∀ piece ∈ pieces, piece.1.Spells piece.2) ∧
      Separate (pieces.map Prod.fst) ∧ pieces.flatMap Prod.snd = "<a\"x\\n\"".toList ∧
      ∃ stream, tokens "<a\"x\\n\"".toList = .ok stream ∧
        stream.sequence = [.less, .bare "a", .quoted "x\n"] ∧
        Tiles "<a\"x\\n\"".toList 0 stream := by
  let pieces : List (Token × List Char) :=
    [(.less, ['<']), (.bare "a", ['a']), (.quoted "x\n", ['"', 'x', '\\', 'n', '"'])]
  have inside : Body ['x', '\\', 'n'] ['x', '\n'] :=
    .plain (by decide) (by decide) (.escape rfl .nil)
  have each : ∀ piece ∈ pieces, piece.1.Spells piece.2 := by
    intro piece member
    simp only [pieces, List.mem_cons, List.not_mem_nil, or_false] at member
    rcases member with rfl | rfl | rfl
    · rfl
    · refine ⟨rfl, List.cons_ne_nil _ _, fun c first => ?_⟩
      rw [List.mem_singleton.mp first]
      rfl
    · exact ⟨_, inside, rfl⟩
  have separate : Separate (pieces.map Prod.fst) :=
    .cons_cons (fun both => both.1) (.cons_cons (fun both => both.2) (.singleton _))
  have tiling := tokens_tile "<a\"x\\n\"".toList
  obtain ⟨stream, scanned, shape⟩ := tiling.2 pieces each separate rfl
  exact ⟨pieces, each, separate, rfl, stream, scanned, shape, tiling.1 stream scanned⟩

end XmlTemplate.Format
