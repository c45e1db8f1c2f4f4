import XmlTemplate.Proofs.Format.Spelling

/-!
# Formats put together and taken apart

The tokens of two formats in a row are the tokens of the one and then of the other, unless a bare word
at the seam goes on. The other way round, a format can be taken apart in front of each of its tokens.

Results:
1. `scan_shift`: the tokens do not depend on the offset at which scanning starts.
2. `scan_seam`: the tokens of two formats in a row.
3. `scan_split`: the two formats that meet in front of a token.
-/

namespace XmlTemplate.Format

open Result (map_eq_ok)

/-! ## Tokens that are left -/

theorem toList_injective {tokens other : Tokens} (same : tokens.toList = other.toList) :
    tokens = other := by
  induction tokens generalizing other with
  | done offset =>
    cases other with
    | done place => cases same; rfl
    | next token place rest => cases same
  | next token offset rest ih =>
    cases other with
    | done place => cases same
    | next other place more =>
      obtain ⟨head, tail⟩ := List.cons.inj same
      cases head
      rw [ih tail]

theorem suffix_toList_next {token : Token} {offset : Nat} {tokens rest : Tokens} :
    rest.toList <:+ (Tokens.next token offset tokens).toList ↔
      rest = .next token offset tokens ∨ rest.toList <:+ tokens.toList := by
  rw [Tokens.toList, List.suffix_cons_iff]
  exact or_congr_left ⟨fun same => toList_injective same, fun same => same ▸ rfl⟩

theorem toList_length (tokens : Tokens) : tokens.toList.length = tokens.sequence.length + 1 := by
  induction tokens with
  | done offset => rfl
  | next token offset rest ih => rw [Tokens.toList, Tokens.sequence, List.length_cons, ih]; rfl

/-- Tokens that are left are all tokens if they are as many. -/
theorem eq_of_suffix {tokens rest : Tokens} (tail : rest.toList <:+ tokens.toList)
    (same : rest.sequence = tokens.sequence) : rest = tokens := by
  have length : rest.toList.length = tokens.toList.length := by
    rw [toList_length, toList_length, same]
  exact toList_injective (tail.eq_of_length length)

/-! ## Bare characters in front -/

/-- A bare character in front of tokens without offsets. -/
def extendSequence (c : Char) : List Token → List Token
  | .bare word :: rest => .bare (c.toString ++ word) :: rest
  | sequence => .bare c.toString :: sequence

theorem sequence_extend (c : Char) (offset : Nat) (tokens : Tokens) :
    (tokens.extend c offset).sequence = extendSequence c tokens.sequence := by
  cases tokens with
  | done place => rfl
  | next token place rest => cases token <;> rfl

theorem extendSequence_append (c : Char) {front back : List Token}
    (other : front = [] → ∀ word, back.head? ≠ some (.bare word)) :
    extendSequence c (front ++ back) = extendSequence c front ++ back := by
  cases front with
  | nil =>
    cases back with
    | nil => rfl
    | cons token back =>
      cases token with
      | bare word => exact absurd rfl (other rfl word)
      | _ => rfl
  | cons token front => cases token <;> rfl

/-- Where no bare word is left, a bare character in front makes no difference to what is left. -/
theorem suffix_extend {c : Char} {offset : Nat} {tokens rest : Tokens}
    (other : ∀ word, rest.first? ≠ some (.bare word)) :
    rest.toList <:+ (tokens.extend c offset).toList ↔ rest.toList <:+ tokens.toList := by
  unfold Tokens.extend
  split
  · rw [suffix_toList_next, suffix_toList_next]
    refine or_congr_left ⟨?_, ?_⟩ <;>
    · rintro rfl
      exact absurd rfl (other _)
  · rw [suffix_toList_next]
    refine or_iff_right ?_
    rintro rfl
    exact absurd rfl (other _)

/-- A bare character in front is part of the first of the tokens that are left, or it makes no
difference to them. -/
theorem suffix_extend_cases {c : Char} {offset : Nat} {tokens rest : Tokens}
    (tail : rest.toList <:+ (tokens.extend c offset).toList) :
    rest = tokens.extend c offset ∨
      rest.toList <:+ tokens.toList ∧ (rest = tokens → ∀ word, rest.first? ≠ some (.bare word)) := by
  unfold Tokens.extend at tail ⊢
  split at tail
  · rcases suffix_toList_next.mp tail with same | later
    · exact .inl same
    · refine .inr ⟨suffix_toList_next.mpr (.inr later), ?_⟩
      rintro rfl
      have longer := later.length_le
      simp only [Tokens.toList, List.length_cons] at longer
      omega
  · rename_i alone
    rcases suffix_toList_next.mp tail with same | later
    · exact .inl same
    · refine .inr ⟨later, ?_⟩
      rintro rfl word starts
      cases rest with
      | done place => cases starts
      | next token place rest =>
        cases starts
        exact alone word place rest rfl

/-! ## Scanning -/

theorem scan_shift {chars : List Char} (clean : Clean chars) {offset : Nat} {stream : Tokens}
    (scanned : scan offset chars = .ok stream) (start : Nat) :
    ∃ moved, scan start chars = .ok moved ∧ moved.sequence = stream.sequence := by
  induction clean generalizing offset stream start with
  | nil =>
    cases scanned
    exact ⟨.done start, rfl, rfl⟩
  | @sign c token chars sign clean ih =>
    rw [scan_sign sign] at scanned ⊢
    obtain ⟨rest, found, rfl⟩ := map_eq_ok.mp scanned
    obtain ⟨moved, again, same⟩ := ih found (start + 1)
    exact ⟨.next token start moved, by rw [again]; rfl, congrArg (List.cons token) same⟩
  | @bare c chars bare clean ih =>
    rw [scan_bare bare] at scanned ⊢
    obtain ⟨rest, found, rfl⟩ := map_eq_ok.mp scanned
    obtain ⟨moved, again, same⟩ := ih found (start + 1)
    refine ⟨moved.extend c start, by rw [again]; rfl, ?_⟩
    rw [sequence_extend, sequence_extend, same]
  | @quoted body text chars inside clean ih =>
    rw [scan_quoted inside] at scanned ⊢
    obtain ⟨rest, found, rfl⟩ := map_eq_ok.mp scanned
    obtain ⟨moved, again, same⟩ := ih found (start + ('"' :: (body ++ ['"'])).length)
    exact ⟨.next (.quoted (String.ofList text)) start moved, by rw [again]; rfl,
      congrArg (List.cons _) same⟩

theorem offset_of_scan {chars : List Char} (clean : Clean chars) {offset : Nat} {stream : Tokens}
    (scanned : scan offset chars = .ok stream) : stream.offset = offset := by
  cases clean with
  | nil =>
    cases scanned
    rfl
  | sign sign clean =>
    rw [scan_sign sign] at scanned
    obtain ⟨rest, found, rfl⟩ := map_eq_ok.mp scanned
    rfl
  | bare bare clean =>
    rw [scan_bare bare] at scanned
    obtain ⟨rest, found, rfl⟩ := map_eq_ok.mp scanned
    unfold Tokens.extend
    split <;> rfl
  | quoted inside clean =>
    rw [scan_quoted inside] at scanned
    obtain ⟨rest, found, rfl⟩ := map_eq_ok.mp scanned
    rfl

/-- The tokens of characters after a seam follow those before it, if they do not start with a bare
word. -/
theorem scan_seam {front back : List Char} (clean : Clean front) {offset : Nat}
    {before after : Tokens} (first : scan offset front = .ok before)
    (second : scan (offset + front.length) back = .ok after)
    (other : ∀ word, after.first? ≠ some (.bare word)) :
    ∃ stream, scan offset (front ++ back) = .ok stream ∧
      stream.sequence = before.sequence ++ after.sequence ∧ after.toList <:+ stream.toList := by
  induction clean generalizing offset before with
  | nil =>
    cases first
    exact ⟨after, second, rfl, List.suffix_refl _⟩
  | @sign c token chars sign clean ih =>
    rw [scan_sign sign] at first
    obtain ⟨rest, found, rfl⟩ := map_eq_ok.mp first
    rw [List.length_cons, Nat.add_comm chars.length, ← Nat.add_assoc] at second
    obtain ⟨stream, scanned, shape, tail⟩ := ih found second
    refine ⟨.next token offset stream, ?_, congrArg (List.cons token) shape,
      suffix_toList_next.mpr (.inr tail)⟩
    rw [List.cons_append, scan_sign sign, scanned]
    rfl
  | @bare c chars bare clean ih =>
    rw [scan_bare bare] at first
    obtain ⟨rest, found, rfl⟩ := map_eq_ok.mp first
    rw [List.length_cons, Nat.add_comm chars.length, ← Nat.add_assoc] at second
    obtain ⟨stream, scanned, shape, tail⟩ := ih found second
    refine ⟨stream.extend c offset, ?_, ?_, (suffix_extend other).mpr tail⟩
    · rw [List.cons_append, scan_bare bare, scanned]
      rfl
    · rw [sequence_extend, sequence_extend, shape]
      exact extendSequence_append c fun _ word => sequence_head? after ▸ other word
  | @quoted body text chars inside clean ih =>
    rw [scan_quoted inside] at first
    obtain ⟨rest, found, rfl⟩ := map_eq_ok.mp first
    have length : offset + ('"' :: (body ++ '"' :: chars)).length =
        offset + ('"' :: (body ++ ['"'])).length + chars.length := by
      simp only [List.length_cons, List.length_append, List.length_nil]
      omega
    rw [length] at second
    obtain ⟨stream, scanned, shape, tail⟩ := ih found second
    refine ⟨.next (.quoted (String.ofList text)) offset stream, ?_, congrArg (List.cons _) shape,
      suffix_toList_next.mpr (.inr tail)⟩
    have split : '"' :: (body ++ '"' :: chars) ++ back = '"' :: (body ++ '"' :: (chars ++ back)) := by
      simp
    rw [split, scan_quoted inside, scanned]
    rfl

/-- The characters can be taken apart in front of every token. -/
theorem scan_split {chars : List Char} (clean : Clean chars) {offset : Nat} {stream rest : Tokens}
    (scanned : scan offset chars = .ok stream) (tail : rest.toList <:+ stream.toList) :
    ∃ front back before, chars = front ++ back ∧ Clean back ∧ scan offset front = .ok before ∧
      scan (offset + front.length) back = .ok rest ∧
      stream.sequence = before.sequence ++ rest.sequence := by
  induction clean generalizing offset stream with
  | nil =>
    cases scanned
    rcases List.suffix_cons_iff.mp tail with same | none
    · obtain rfl : rest = .done offset := toList_injective same
      exact ⟨[], [], .done offset, rfl, .nil, rfl, rfl, rfl⟩
    · cases rest <;> simp [Tokens.toList] at none
  | @sign c token chars sign clean ih =>
    rw [scan_sign sign] at scanned
    obtain ⟨stream, found, rfl⟩ := map_eq_ok.mp scanned
    rcases suffix_toList_next.mp tail with rfl | tail
    · refine ⟨[], c :: chars, .done offset, rfl, .sign sign clean, rfl, ?_, rfl⟩
      rw [List.length_nil, Nat.add_zero, scan_sign sign, found]
      rfl
    · obtain ⟨front, back, before, rfl, apart, first, second, shape⟩ := ih found tail
      refine ⟨c :: front, back, .next token offset before, rfl, apart, ?_, ?_,
        congrArg (List.cons token) shape⟩
      · rw [scan_sign sign, first]
        rfl
      · rw [List.length_cons, Nat.add_comm front.length, ← Nat.add_assoc, second]
  | @bare c chars bare clean ih =>
    rw [scan_bare bare] at scanned
    obtain ⟨stream, found, rfl⟩ := map_eq_ok.mp scanned
    rcases suffix_extend_cases tail with rfl | ⟨tail, apartWord⟩
    · refine ⟨[], c :: chars, .done offset, rfl, .bare bare clean, rfl, ?_, rfl⟩
      rw [List.length_nil, Nat.add_zero, scan_bare bare, found]
      rfl
    · obtain ⟨front, back, before, rfl, apart, first, second, shape⟩ := ih found tail
      refine ⟨c :: front, back, before.extend c offset, rfl, apart, ?_, ?_, ?_⟩
      · rw [scan_bare bare, first]
        rfl
      · rw [List.length_cons, Nat.add_comm front.length, ← Nat.add_assoc, second]
      · rw [sequence_extend, sequence_extend, shape]
        -- with nothing before it, what is left is all that the character stands in front of
        refine extendSequence_append c fun nothing word => sequence_head? rest ▸ apartWord ?_ word
        exact eq_of_suffix tail (by rw [shape, nothing, List.nil_append])
  | @quoted body text chars inside clean ih =>
    rw [scan_quoted inside] at scanned
    obtain ⟨stream, found, rfl⟩ := map_eq_ok.mp scanned
    rcases suffix_toList_next.mp tail with rfl | tail
    · refine ⟨[], '"' :: (body ++ '"' :: chars), .done offset, rfl, .quoted inside clean, rfl, ?_, rfl⟩
      rw [List.length_nil, Nat.add_zero, scan_quoted inside, found]
      rfl
    · obtain ⟨front, back, before, rfl, apart, first, second, shape⟩ := ih found tail
      refine ⟨'"' :: (body ++ '"' :: front), back,
        .next (.quoted (String.ofList text)) offset before, by simp, apart, ?_, ?_,
        congrArg (List.cons _) shape⟩
      · rw [scan_quoted inside, first]
        rfl
      · have length : offset + ('"' :: (body ++ '"' :: front)).length =
            offset + ('"' :: (body ++ ['"'])).length + front.length := by
          simp only [List.length_cons, List.length_append, List.length_nil]
          omega
        rw [length, second]

end XmlTemplate.Format
