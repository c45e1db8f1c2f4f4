import XmlTemplate.Proofs.Xml.Escaping

/-!
# Open elements

An element is open from the first character of its name to the end of its end tag. Reading a text as
a fragment tells, at every character, how many elements are open there. Only start tags open
elements, whatever stands in the values of their attributes and in the texts between tags.

Results:
1. `opened_of_readFrom`: elements are opened and closed by the closing bracket of a tag.
2. `within_escapeText`, `within_startTag`, `openElements_of_endTag`: what is open inside of a text or
   a tag.
3. `Within.append`, `Within.enclosed`: texts in a row are no deeper than each of them, and an element
   is one level deeper than what is inside it.
-/

namespace XmlTemplate.Xml

/-! ## Counting -/

/-- The place is in a start tag, after the first character of its name. -/
def Place.inStartTag : Place → Bool
  | .name .startTag _ | .name (.attribute _) _ | .quote .. | .value .. | .afterValue _ => true
  | .content _ | .tag | .name .endTag _ => false

/-- The number of elements that are open, the one whose start tag is being read among them. -/
def Reader.openElements (reader : Reader) : Nat :=
  reader.opened.length + reader.place.inStartTag.toNat

/-- The number of elements that are open at the end of a text, if it can be the beginning of a
fragment. -/
def openElements? (text : String) : Option Nat :=
  (Reader.readFrom ⟨.content none, [], []⟩ text.toList).map Reader.openElements

namespace Reader

/-- The characters are read as content, and after them the same elements are open as before. -/
def Balanced (chars : List Char) : Prop :=
  ∀ opened inner, ∃ trees,
    readFrom ⟨.content none, opened, inner⟩ chars = some ⟨.content none, opened, trees⟩

/-- Every beginning of the characters is read as content, and nowhere are there more elements open than
`levels` besides those that are open already. -/
def Within (levels : Nat) (chars : List Char) : Prop :=
  ∀ opened inner front back, chars = front ++ back →
    ∃ reader, readFrom ⟨.content none, opened, inner⟩ front = some reader ∧
      reader.openElements ≤ opened.length + levels

/-! ## Places -/

variable {reader next : Reader} {c : Char} {chars : List Char}

/-- What is read as a whole is read up to every place in it. -/
theorem exists_readFrom {front back : List Char} (read : reader.readFrom (front ++ back) = some next) :
    ∃ middle, reader.readFrom front = some middle := by
  rw [readFrom_append] at read
  obtain ⟨middle, found, -⟩ := Option.bind_eq_some_iff.mp read
  exact ⟨middle, found⟩

theorem openElements_le (reader : Reader) : reader.openElements ≤ reader.opened.length + 1 :=
  Nat.add_le_add_left (Bool.toNat_le _) _

theorem opened_of_named? {name : String} {naming : Naming}
    (read : reader.named? name naming c = some next) (other : c ≠ '>') :
    next.opened = reader.opened := by
  unfold named? at read
  split at read
  · exact absurd rfl other
  · exact absurd rfl other
  · cases read
    rfl
  · cases read
    rfl
  · cases read

theorem opened_of_next? (read : reader.next? c = some next) (other : c ≠ '>') :
    next.opened = reader.opened := by
  unfold next? at read
  split at read
  · split at read
    · cases read
      rfl
    · obtain ⟨both, -, rfl⟩ := Option.map_eq_some_iff.mp read
      rfl
  · split at read
    · cases read
      rfl
    · split at read <;> cases read
      rfl
  · split at read
    · split at read
      · cases read
      · exact opened_of_named? read other
    · cases read
      rfl
  · split at read <;> cases read
    rfl
  · split at read
    · cases read
      rfl
    · obtain ⟨both, -, rfl⟩ := Option.map_eq_some_iff.mp read
      rfl
  · split at read
    · exact absurd ‹_› other
    · split at read <;> cases read
      rfl

/-- Without the closing bracket of a tag the same elements stay open. -/
theorem opened_of_readFrom (read : reader.readFrom chars = some next) (none : '>' ∉ chars) :
    next.opened = reader.opened := by
  induction chars generalizing reader with
  | nil =>
    cases read
    rfl
  | cons c chars ih =>
    rw [List.mem_cons, not_or] at none
    obtain ⟨first, others⟩ := none
    rw [readFrom_cons] at read
    obtain ⟨middle, one, read⟩ := Option.bind_eq_some_iff.mp read
    rw [ih read others, opened_of_next? one (Ne.symm first)]

/-- Without the opening bracket of a tag the reader stays in the content. -/
theorem openElements_of_content {reference : Option (List Char)} {opened : List Frame}
    {inner : List Tree} (read : readFrom ⟨.content reference, opened, inner⟩ chars = some next)
    (none : '<' ∉ chars) : next.openElements = opened.length := by
  induction chars generalizing reference inner with
  | nil =>
    cases read
    rfl
  | cons c chars ih =>
    rw [List.mem_cons, not_or] at none
    obtain ⟨first, others⟩ := none
    rw [readFrom_cons] at read
    obtain ⟨middle, one, read⟩ := Option.bind_eq_some_iff.mp read
    have outside : ¬ (reference = Option.none ∧ c = '<') := fun both => first both.2.symm
    rw [next?] at one
    simp only [outside, if_false] at one
    obtain ⟨both, -, rfl⟩ := Option.map_eq_some_iff.mp one
    exact ih read others

/-- Without the closing bracket of a tag at most one element is opened. -/
theorem openElements_of_unclosed {opened : List Frame} {inner : List Tree}
    (read : readFrom ⟨.content none, opened, inner⟩ chars = some next) (none : '>' ∉ chars) :
    next.openElements ≤ opened.length + 1 := by
  have same := opened_of_readFrom read none
  simpa [same] using openElements_le next

/-! ## Texts -/

theorem balanced_escapeText (raw : String) : Balanced (escapeText raw).toList := by
  have plain : (Tree.text raw).Plain := trivial
  exact fun opened inner => ⟨_, readFrom_spell plain opened inner⟩

theorem within_escapeText (raw : String) : Within 0 (escapeText raw).toList := by
  intro opened inner front back cut
  obtain ⟨trees, read⟩ := balanced_escapeText raw opened inner
  rw [cut] at read
  obtain ⟨reader, found⟩ := exists_readFrom read
  have plain : '<' ∉ front := fun member =>
    escaping_escapeText.absent raw '<' (by simp) (cut ▸ List.mem_append_left back member)
  exact ⟨reader, found, Nat.le_of_eq (openElements_of_content found plain)⟩

/-! ## Tags -/

/-- A beginning of a tag is the whole tag or has no closing bracket. -/
theorem tag_cases {front back : List Char} (cut : chars ++ ['>'] = front ++ back) :
    front = chars ++ ['>'] ∨ ∃ rest, chars = front ++ rest := by
  rcases List.append_eq_append_iff.mp cut with ⟨more, whole, last⟩ | ⟨rest, part, -⟩
  · cases more with
    | nil => exact .inr ⟨[], by simp [whole]⟩
    | cons sign more =>
      obtain ⟨rfl, nothing⟩ := List.cons.inj last
      obtain ⟨rfl, -⟩ := List.append_eq_nil_iff.mp nothing.symm
      exact .inl whole
  · exact .inr ⟨rest, part⟩

theorem not_mem_of_plain {name : String} (plain : IsPlainName name) {sign : Char}
    (listed : isSign sign = true) : sign ∉ name.toList := by
  intro member
  rw [plain.2 sign member] at listed
  cases listed

theorem not_mem_spellAttributes {items : List (String × String)}
    (plain : ∀ item ∈ items, IsPlainName item.1) : '>' ∉ (spellAttributes items).toList := by
  induction items with
  | nil => simp [spellAttributes]
  | cons item items ih =>
    obtain ⟨first, others⟩ := List.forall_mem_cons.mp plain
    have name : '>' ∉ item.1.toList := not_mem_of_plain first rfl
    have value := escaping_escapeAttribute.absent item.2 '>' (by simp)
    simp [spellAttributes, spellAttribute, String.toList_append, name, value, ih others]

variable {start : Start} {levels : Nat}

theorem within_startTag (named : start.Named) :
    Within 1 (startTag start.tag start.attributes).toList := by
  obtain ⟨tag, attributes⟩ := start
  obtain ⟨plainTag, plain⟩ := named.plain
  intro opened inner front back cut
  have read := readFrom_startTag plainTag plain opened inner
  have whole : (startTag tag attributes).toList =
      '<' :: (tag.toList ++ (spellAttributes attributes).toList) ++ ['>'] := by
    simp [toList_startTag]
  rw [whole] at cut
  rcases tag_cases cut with rfl | ⟨rest, part⟩
  · rw [← whole]
    exact ⟨_, read, Nat.le_refl _⟩
  · rw [whole, cut] at read
    obtain ⟨reader, found⟩ := exists_readFrom read
    have name : '>' ∉ tag.toList := not_mem_of_plain plainTag rfl
    have unclosed : '>' ∉ '<' :: (tag.toList ++ (spellAttributes attributes).toList) := by
      simp [name, not_mem_spellAttributes plain]
    refine ⟨reader, found, openElements_of_unclosed found fun member => unclosed ?_⟩
    rw [part]
    exact List.mem_append_left rest member

/-- Nowhere in its end tag are there more elements open than the one that it closes and those around
it. -/
theorem openElements_of_endTag (named : start.Named) {before inner : List Tree}
    {opened : List Frame} {front back : List Char} (cut : (endTag start.tag).toList = front ++ back) :
    ∃ reader, readFrom ⟨.content none, ⟨start, before⟩ :: opened, inner⟩ front = some reader ∧
      reader.openElements ≤ opened.length + 1 := by
  obtain ⟨tag, attributes⟩ := start
  obtain ⟨plainTag, -⟩ := named.plain
  have whole : (endTag tag).toList = '<' :: '/' :: tag.toList ++ ['>'] := by simp [toList_endTag]
  rw [whole] at cut
  rcases tag_cases cut with rfl | ⟨rest, part⟩
  · rw [← whole, readFrom_endTag plainTag]
    exact ⟨_, rfl, Nat.le_succ _⟩
  · -- no place in an end tag counts as one in a start tag
    cases front with
    | nil => exact ⟨_, rfl, Nat.le_refl _⟩
    | cons sign front =>
      obtain ⟨rfl, later⟩ := List.cons.inj part
      cases front with
      | nil => exact ⟨_, rfl, Nat.le_refl _⟩
      | cons slash front =>
        obtain ⟨rfl, name⟩ := List.cons.inj later
        have plain : ∀ c ∈ front, isSign c = false := fun c member =>
          plainTag.2 c (name ▸ List.mem_append_left rest member)
        exact ⟨_, readFrom_plain plain .endTag [] _ _, Nat.le_refl _⟩

/-! ## Texts in a row -/

variable {front back body : List Char}

theorem Balanced.nil : Balanced [] := fun _ inner => ⟨inner, rfl⟩

theorem Within.nil (levels : Nat) : Within levels [] := by
  intro opened inner front back cut
  obtain ⟨rfl, -⟩ := List.append_eq_nil_iff.mp cut.symm
  exact ⟨_, rfl, Nat.le_add_right _ _⟩

theorem Balanced.append (first : Balanced front) (second : Balanced back) :
    Balanced (front ++ back) := by
  intro opened inner
  obtain ⟨middle, one⟩ := first opened inner
  obtain ⟨trees, two⟩ := second opened middle
  exact ⟨trees, by rw [readFrom_append, one, Option.bind_some, two]⟩

theorem Within.mono {more : Nat} (within : Within levels body) (atMost : levels ≤ more) :
    Within more body := by
  intro opened inner front back cut
  obtain ⟨reader, read, few⟩ := within opened inner front back cut
  exact ⟨reader, read, by omega⟩

/-- What is cut off says nothing about what stands before it. -/
theorem Within.of_append (within : Within levels (front ++ back)) : Within levels front := by
  intro opened inner part rest cut
  exact within opened inner part (rest ++ back) (by rw [cut, List.append_assoc])

theorem Within.append (balanced : Balanced front) (first : Within levels front)
    (second : Within levels back) : Within levels (front ++ back) := by
  intro opened inner part rest cut
  rcases List.append_eq_append_iff.mp cut with ⟨more, rfl, later⟩ | ⟨more, here, -⟩
  · obtain ⟨middle, whole⟩ := balanced opened inner
    rw [readFrom_append, whole]
    exact second opened middle more rest later
  · exact first opened inner part more here

theorem Within.inside (named : start.Named) (within : Within levels body) :
    Within (levels + 1) ((startTag start.tag start.attributes).toList ++ body) := by
  obtain ⟨plainTag, plain⟩ := named.plain
  intro opened inner part rest cut
  rcases List.append_eq_append_iff.mp cut with ⟨more, rfl, later⟩ | ⟨more, here, -⟩
  · rw [readFrom_append, readFrom_startTag plainTag plain, Option.bind_some]
    obtain ⟨reader, read, few⟩ := within (⟨start, inner⟩ :: opened) [] more rest later
    exact ⟨reader, read, by simpa [Nat.add_assoc, Nat.add_comm 1] using few⟩
  · obtain ⟨reader, read, few⟩ := within_startTag named opened inner part more here
    exact ⟨reader, read, by omega⟩

theorem Balanced.enclosed (named : start.Named) (balanced : Balanced body) :
    Balanced ((startTag start.tag start.attributes).toList ++ body ++ (endTag start.tag).toList) := by
  obtain ⟨plainTag, plain⟩ := named.plain
  intro opened inner
  obtain ⟨trees, read⟩ := balanced (⟨start, inner⟩ :: opened) []
  rw [readFrom_append, readFrom_append, readFrom_startTag plainTag plain, Option.bind_some, read,
    Option.bind_some, readFrom_endTag plainTag]
  exact ⟨_, rfl⟩

theorem Within.enclosed (named : start.Named) (balanced : Balanced body)
    (within : Within levels body) :
    Within (levels + 1)
      ((startTag start.tag start.attributes).toList ++ body ++ (endTag start.tag).toList) := by
  obtain ⟨plainTag, plain⟩ := named.plain
  intro opened inner part rest cut
  rcases List.append_eq_append_iff.mp cut with ⟨more, rfl, later⟩ | ⟨more, here, -⟩
  · obtain ⟨trees, read⟩ := balanced (⟨start, inner⟩ :: opened) []
    rw [readFrom_append, readFrom_append, readFrom_startTag plainTag plain, Option.bind_some, read,
      Option.bind_some]
    obtain ⟨reader, found, few⟩ := openElements_of_endTag named later
    exact ⟨reader, found, by omega⟩
  · exact within.inside named opened inner part more here

end Reader

end XmlTemplate.Xml
