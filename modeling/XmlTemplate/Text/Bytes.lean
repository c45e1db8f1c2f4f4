/-!
# Bytes

A text is held as the bytes of its characters, one to four for each of them. A place in the bytes is
a place in the text only if it does not fall into a character. An ASCII character is one byte, and no
byte of another character has its value.

Results:
1. `toList_toUTF8`: the bytes of a text are those of its characters.
2. `splitAtByte_bytes`: a text is split between two characters.
3. `findIdx?_bytes`: the first byte of an ASCII character stands where this character does.
-/

namespace XmlTemplate.Text

/-- The bytes of characters. -/
def bytes (chars : List Char) : List UInt8 := chars.flatMap String.utf8EncodeChar

/-- The characters whose bytes come before an offset, and the characters after them. -/
def splitAtByte : (offset : Nat) → List Char → List Char × List Char
  | _, [] => ([], [])
  | offset, c :: chars =>
    if c.utf8Size ≤ offset then
      let (front, back) := splitAtByte (offset - c.utf8Size) chars
      (c :: front, back)
    else ([], c :: chars)

theorem toList_toUTF8 (text : String) : text.toUTF8.data.toList = bytes text.toList := by
  rw [String.toUTF8_eq_toByteArray, ← String.utf8Encode_toList, List.utf8Encode,
    List.data_toByteArray, bytes]

theorem length_bytes_cons (c : Char) (chars : List Char) :
    (bytes (c :: chars)).length = c.utf8Size + (bytes chars).length := by
  simp [bytes, String.length_utf8EncodeChar]

theorem splitAtByte_bytes (front back : List Char) :
    splitAtByte (bytes front).length (front ++ back) = (front, back) := by
  induction front with
  | nil =>
    cases back with
    | nil => rfl
    | cons c back =>
      have present : ¬ c.utf8Size ≤ 0 := Nat.not_le.mpr c.utf8Size_pos
      simp [splitAtByte, bytes, present]
  | cons c front ih =>
    rw [List.cons_append, splitAtByte, length_bytes_cons, if_pos (Nat.le_add_right ..),
      Nat.add_sub_cancel_left, ih]

/-! ## ASCII characters -/

/-- The character is one byte. -/
def IsAscii (c : Char) : Prop := c.toNat < 128

instance : DecidablePred IsAscii := fun c => inferInstanceAs (Decidable (c.toNat < 128))

theorem utf8EncodeChar_of_isAscii {c : Char} (ascii : IsAscii c) :
    String.utf8EncodeChar c = [c.toUInt8] :=
  String.utf8EncodeChar_eq_singleton (Char.utf8Size_eq_one_iff.mpr (Nat.le_of_lt_succ ascii))

theorem toNat_toUInt8 {c : Char} (ascii : IsAscii c) : c.toUInt8.toNat = c.toNat := by
  rw [Char.toUInt8, UInt32.toNat_toUInt8]
  exact Nat.mod_eq_of_lt (Nat.lt_trans ascii (by decide))

theorem toUInt8_inj {c sign : Char} (one : IsAscii c) (two : IsAscii sign) :
    c.toUInt8 = sign.toUInt8 ↔ c = sign := by
  rw [← UInt8.toNat_inj, toNat_toUInt8 one, toNat_toUInt8 two, Char.toNat_inj]

theorem le_toNat_of_mem_utf8EncodeChar {c : Char} (other : ¬ IsAscii c) {b : UInt8}
    (member : b ∈ String.utf8EncodeChar c) : 128 ≤ b.toNat := by
  have large : ¬ c.val.toNat ≤ 127 := fun small => other (Nat.lt_succ_of_le small)
  -- the first byte and the bytes after it are sums with at least 128
  simp only [String.utf8EncodeChar, large, if_false] at member
  split at member
  · simp only [List.mem_cons, List.not_mem_nil, or_false] at member
    rcases member with rfl | rfl <;> simp <;> omega
  · split at member <;> simp only [List.mem_cons, List.not_mem_nil, or_false] at member
    · rcases member with rfl | rfl | rfl <;> simp <;> omega
    · rcases member with rfl | rfl | rfl | rfl <;> simp <;> omega

variable {signs : List Char}

theorem mem_utf8EncodeChar_iff (ascii : ∀ sign ∈ signs, IsAscii sign) (c : Char) :
    (∃ b ∈ String.utf8EncodeChar c, b ∈ signs.map Char.toUInt8) ↔ c ∈ signs := by
  by_cases small : IsAscii c
  · rw [utf8EncodeChar_of_isAscii small]
    constructor
    · rintro ⟨b, here, listed⟩
      obtain ⟨sign, member, same⟩ := List.mem_map.mp listed
      obtain rfl := List.mem_singleton.mp here
      exact (toUInt8_inj small (ascii sign member)).mp same.symm ▸ member
    · exact fun member => ⟨c.toUInt8, by simp, List.mem_map_of_mem member⟩
  · constructor
    · rintro ⟨b, here, listed⟩
      obtain ⟨sign, member, rfl⟩ := List.mem_map.mp listed
      have large := le_toNat_of_mem_utf8EncodeChar small here
      rw [toNat_toUInt8 (ascii sign member)] at large
      exact absurd (ascii sign member) (Nat.not_lt.mpr large)
    · exact fun member => absurd (ascii c member) small

theorem findIdx?_utf8EncodeChar (ascii : ∀ sign ∈ signs, IsAscii sign) (c : Char) :
    (String.utf8EncodeChar c).findIdx? (signs.map Char.toUInt8).contains =
      if c ∈ signs then some 0 else none := by
  have found := mem_utf8EncodeChar_iff ascii c
  split
  · rename_i member
    rw [utf8EncodeChar_of_isAscii (ascii c member)]
    simp only [List.findIdx?_singleton, List.contains_iff_mem, ite_eq_left_iff]
    exact fun absent => absurd (List.mem_map_of_mem member) absent
  · rename_i absent
    rw [List.findIdx?_eq_none_iff]
    intro b here
    rw [← Bool.not_eq_true, List.contains_iff_mem]
    exact fun listed => absent (found.mp ⟨b, here, listed⟩)

/-- The first byte of one of some ASCII characters is where the first of these characters starts. -/
theorem findIdx?_bytes (ascii : ∀ sign ∈ signs, IsAscii sign) (chars : List Char) :
    (bytes chars).findIdx? (signs.map Char.toUInt8).contains =
      (chars.findIdx? signs.contains).map fun i => (bytes (chars.take i)).length := by
  induction chars with
  | nil => rfl
  | cons c chars ih =>
    have first := findIdx?_utf8EncodeChar ascii c
    rw [bytes, List.flatMap_cons, List.findIdx?_append, first, ← bytes, ih, List.findIdx?_cons]
    by_cases member : c ∈ signs
    · simp [member, bytes]
    · have absent : signs.contains c = false := by simpa using member
      rw [if_neg member, Option.none_or, absent]
      -- the places of the characters and of the bytes move on by one character
      cases chars.findIdx? signs.contains with
      | none => rfl
      | some i => simp [length_bytes_cons, String.length_utf8EncodeChar, Nat.add_comm]

end XmlTemplate.Text
