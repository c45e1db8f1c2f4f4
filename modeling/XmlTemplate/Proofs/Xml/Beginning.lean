import XmlTemplate.Proofs.Xml.Reread

/-!
# Beginnings of fragments

A text that is cut off inside the spelling of trees is the beginning of smaller trees: those that
end before the cut, and the ones that are open there with what was begun in them. So every cut can
be completed, and what is completed says nothing about what would have come after the cut.

Results:
1. `append_cases`: a beginning of two texts ends in the first or in the second.
2. `Begins.completed`: a beginning can be completed.
3. `exists_begins`: a text that is cut off anywhere is the beginning of trees with names.
4. `not_checkWellFormed_startTag`: nothing completes a start tag that has an attribute name twice.
-/

namespace XmlTemplate.Xml

/-! ## Cuts -/

/-- A beginning of two texts in a row ends in the first one, or has all of it and ends in the
second. -/
theorem append_cases {text rest first second : String} (cut : text ++ rest = first ++ second) :
    (∃ more, text ++ more = first) ∨ ∃ part, text = first ++ part ∧ part ++ rest = second := by
  have chars := congrArg String.toList cut
  rw [String.toList_append, String.toList_append] at chars
  rcases List.append_eq_append_iff.mp chars with ⟨more, whole, -⟩ | ⟨part, whole, left⟩
  · refine .inl ⟨String.ofList more, String.toList_injective ?_⟩
    rw [String.toList_append, String.toList_ofList, whole]
  · refine .inr ⟨String.ofList part, String.toList_injective ?_, String.toList_injective ?_⟩
    · rw [String.toList_append, String.toList_ofList, whole]
    · rw [String.toList_append, String.toList_ofList, left]

/-- A text is the beginning of trees up to a place where nothing is left but to complete what was
begun: a text, a name, an attribute, and the elements that are open. -/
inductive Begins : String → List Tree → Prop
  | nothing : Begins "" []
  | text {part rest raw : String} :
      part ≠ "" → part ++ rest = escapeText raw → Begins part [.text raw]
  | tag {part rest tag : String} :
      part ≠ "" → part ++ rest = "<" ++ tag → Begins part [.element tag [] []]
  | item {part rest : String} {item : String × String} (tag : String)
      (items : List (String × String)) : part ≠ "" → part ++ rest = spellAttribute item →
      Begins ("<" ++ tag ++ spellAttributes items ++ part) [.element tag (items ++ [item]) []]
  | inside {part : String} {children : List Tree} (tag : String)
      (attributes : List (String × String)) : Begins part children →
      Begins (startTag tag attributes ++ part) [.element tag attributes children]
  | ending {part rest tag : String} (attributes : List (String × String)) (children : List Tree) :
      part ++ rest = endTag tag →
      Begins (startTag tag attributes ++ spellAll children ++ part) [.element tag attributes children]
  | after {part : String} {forest : List Tree} (tree : Tree) :
      Begins part forest → Begins (tree.spell ++ part) (tree :: forest)

/-- A text has trees that are complete and start tags of elements that are open, and nothing else.
-/
inductive Opens : String → List Tree → Prop
  | nothing : Opens "" []
  | inside {part : String} {children : List Tree} (tag : String)
      (attributes : List (String × String)) : Opens part children →
      Opens (startTag tag attributes ++ part) [.element tag attributes children]
  | after {part : String} {forest : List Tree} (tree : Tree) :
      Opens part forest → Opens (tree.spell ++ part) (tree :: forest)

theorem allNamed_nil : AllNamed [] := List.forall_mem_nil _

theorem allNamed_text (raw : String) : AllNamed [.text raw] := List.forall_mem_nil _

variable {text rest tag : String} {forest : List Tree}

theorem Opens.begins (opens : Opens text forest) : Begins text forest := by
  induction opens with
  | nothing => exact .nothing
  | inside tag attributes _ ih => exact .inside tag attributes ih
  | after tree _ ih => exact .after tree ih

theorem Opens.afterAll (opens : Opens text forest) (trees : List Tree) :
    Opens (spellAll trees ++ text) (trees ++ forest) := by
  induction trees with
  | nil => simpa [spellAll] using opens
  | cons tree trees ih =>
    rw [spellAll, String.append_assoc]
    exact .after tree ih

/-! ## Completion -/

theorem spellAttributes_append (left right : List (String × String)) :
    spellAttributes (left ++ right) = spellAttributes left ++ spellAttributes right := by
  induction left with
  | nil => simp [spellAttributes]
  | cons item items ih => simp [spellAttributes, ih, String.append_assoc]

/-- What is left of an element after a beginning inside its start tag. -/
theorem spell_childless (tag : String) (attributes : List (String × String)) :
    spellAll [.element tag attributes []] =
      "<" ++ tag ++ spellAttributes attributes ++ (">" ++ endTag tag) := by
  simp [spellAll, Tree.spell, startTag, String.append_assoc]

theorem Begins.completed (begins : Begins text forest) : ∃ rest, text ++ rest = spellAll forest := by
  induction begins with
  | nothing => exact ⟨"", rfl⟩
  | @text part rest raw _ cut =>
    exact ⟨rest, by simpa [spellAll, Tree.spell] using cut⟩
  | @tag part rest tag _ cut =>
    refine ⟨rest ++ (">" ++ endTag tag), ?_⟩
    rw [← String.append_assoc, cut, spell_childless, spellAttributes, String.append_empty]
  | @item part rest item tag items _ cut =>
    refine ⟨rest ++ (">" ++ endTag tag), ?_⟩
    rw [spell_childless, spellAttributes_append, spellAttributes, spellAttributes,
      String.append_empty, ← cut]
    simp only [String.append_assoc]
  | @inside part children tag attributes _ ih =>
    obtain ⟨rest, whole⟩ := ih
    refine ⟨rest ++ endTag tag, ?_⟩
    simp [spellAll, Tree.spell, ← whole, String.append_assoc]
  | @ending part rest tag attributes children cut =>
    refine ⟨rest, ?_⟩
    simp [spellAll, Tree.spell, ← cut, String.append_assoc]
  | after tree _ ih =>
    obtain ⟨rest, whole⟩ := ih
    refine ⟨rest, ?_⟩
    rw [String.append_assoc, whole, spellAll]

/-! ## Pruning -/

/-- The start tag of an element up to the end of its last attribute. -/
theorem begins_startTag (tag : String) (attributes : List (String × String)) :
    Begins ("<" ++ tag ++ spellAttributes attributes) [.element tag attributes []] := by
  rcases List.eq_nil_or_concat attributes with rfl | ⟨items, item, rfl⟩
  · rw [spellAttributes, String.append_empty]
    exact .tag (by simp) String.append_empty
  · rw [List.concat_eq_append, spellAttributes_append, spellAttributes, spellAttributes,
      String.append_empty, ← String.append_assoc]
    exact .item tag items (by simp [spellAttribute]) String.append_empty

theorem Start.Named.of_append {items others : List (String × String)}
    (named : Start.Named ⟨tag, items ++ others⟩) : Start.Named ⟨tag, items⟩ :=
  ⟨named.tag, (List.forall_mem_append.mp named.attributes).1⟩

/-- A cut in the start tag of an element, after its name and some of its attributes. -/
theorem begins_attributes {before items : List (String × String)}
    (named : Start.Named ⟨tag, before ++ items⟩)
    (cut : text ++ rest = spellAttributes items ++ ">") :
    ∃ attributes, Start.Named ⟨tag, attributes⟩ ∧
      Begins ("<" ++ tag ++ spellAttributes before ++ text) [.element tag attributes []] := by
  by_cases nothing : text = ""
  · subst nothing
    rw [String.append_empty]
    exact ⟨before, named.of_append, begins_startTag tag before⟩
  · induction items generalizing before text with
    | nil =>
      -- the end of the start tag is one character, so it is all there
      have chars := congrArg String.toList cut
      simp only [spellAttributes, String.empty_append, String.toList_append] at chars
      obtain ⟨empty, -⟩ | ⟨whole, -⟩ := List.append_eq_singleton_iff.mp chars
      · exact absurd (String.toList_eq_nil_iff.mp empty) nothing
      · obtain rfl : text = ">" := String.toList_injective whole
        refine ⟨before, named.of_append, ?_⟩
        have opened := Begins.inside tag before .nothing
        rwa [String.append_empty] at opened
    | cons item items ih =>
      rw [List.append_cons] at named
      rw [spellAttributes, String.append_assoc] at cut
      rcases append_cases cut with ⟨more, whole⟩ | ⟨part, rfl, left⟩
      · exact ⟨before ++ [item], named.of_append, .item tag before nothing whole⟩
      · have grown : "<" ++ tag ++ spellAttributes before ++ (spellAttribute item ++ part) =
            "<" ++ tag ++ spellAttributes (before ++ [item]) ++ part := by
          simp [spellAttributes_append, spellAttributes, String.append_assoc]
        rw [grown]
        by_cases last : part = ""
        · subst last
          rw [String.append_empty]
          exact ⟨before ++ [item], named.of_append, begins_startTag tag _⟩
        · exact ih named left last

theorem begins_element {attributes : List (String × String)} (named : Start.Named ⟨tag, attributes⟩)
    (present : text ≠ "") (cut : text ++ rest = startTag tag attributes) :
    ∃ attributes, Start.Named ⟨tag, attributes⟩ ∧ Begins text [.element tag attributes []] := by
  rw [startTag, String.append_assoc] at cut
  rcases append_cases cut with ⟨more, whole⟩ | ⟨part, rfl, left⟩
  · exact ⟨[], ⟨named.tag, List.forall_mem_nil _⟩, .tag present whole⟩
  · have inside := @begins_attributes part rest tag [] attributes named left
    rwa [spellAttributes, String.append_empty] at inside

mutual
theorem exists_begins_spell {text rest : String} {tree : Tree}
    (named : ∀ start ∈ tree.starts, start.Named)
    (cut : text ++ rest = tree.spell) : ∃ pruned, AllNamed pruned ∧ Begins text pruned := by
  by_cases nothing : text = ""
  · exact ⟨[], allNamed_nil, nothing ▸ .nothing⟩
  · cases tree with
    | text raw => exact ⟨[.text raw], allNamed_text raw, .text nothing cut⟩
    | element tag attributes children =>
      obtain ⟨first, inner⟩ := List.forall_mem_cons.mp named
      rw [Tree.spell, String.append_assoc] at cut
      rcases append_cases cut with ⟨more, whole⟩ | ⟨part, rfl, left⟩
      · obtain ⟨begun, fine, begins⟩ := begins_element first nothing whole
        exact ⟨[.element tag begun []], allNamed_element.mpr ⟨fine, allNamed_nil⟩, begins⟩
      · rcases append_cases left with ⟨more, whole⟩ | ⟨last, rfl, ends⟩
        · obtain ⟨pruned, fine, begins⟩ := exists_begins inner whole
          exact ⟨_, allNamed_element.mpr ⟨first, fine⟩, .inside tag attributes begins⟩
        · refine ⟨_, allNamed_element.mpr ⟨first, inner⟩, ?_⟩
          rw [← String.append_assoc]
          exact .ending attributes children ends

/-- A text that is cut off in the spelling of trees with names is the beginning of such trees. -/
theorem exists_begins {text rest : String} {forest : List Tree} (named : AllNamed forest)
    (cut : text ++ rest = spellAll forest) : ∃ pruned, AllNamed pruned ∧ Begins text pruned := by
  cases forest with
  | nil =>
    obtain ⟨rfl, -⟩ := String.append_eq_empty_iff.mp cut
    exact ⟨[], allNamed_nil, .nothing⟩
  | cons tree trees =>
    obtain ⟨first, others⟩ := List.forall_mem_append.mp named
    rcases append_cases cut with ⟨more, whole⟩ | ⟨part, rfl, left⟩
    · exact exists_begins_spell first whole
    · obtain ⟨pruned, fine, begins⟩ := exists_begins others left
      exact ⟨tree :: pruned, List.forall_mem_append.mpr ⟨first, fine⟩, .after tree begins⟩
end

/-! ## Repeated names -/

/-- Whatever follows a start tag that has an attribute name twice, the text is not well formed. -/
theorem not_checkWellFormed_startTag {start : Start} (named : start.Named)
    (repeated : ¬ start.Distinct) (rest : String) :
    ¬ ∃ count, checkWellFormed (startTag start.tag start.attributes ++ rest) = .ok count := by
  rintro ⟨count, passes⟩
  obtain ⟨offset, first, stops⟩ := repeats_startTag named repeated [] 0
  have ends := stops rest.toList
  rw [← String.toList_append] at ends
  rw [checkWellFormed, readPieces_dropMark ends] at passes
  cases passes

end XmlTemplate.Xml
