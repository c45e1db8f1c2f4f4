import XmlTemplate.Proofs.Xml.Fragment
import XmlTemplate.Xml.WellFormed

/-!
# Checking the spelling of trees

The check of well-formed documents has its own rules for pieces, tags and attributes. On the spelling
of trees it goes from piece to piece as the trees were spelled: every start tag opens an element that
its end tag closes. Only a start tag that has an attribute name twice is refused.

Results:
1. `checkAttributes_inside`: the attributes of a start tag pass if their names are distinct, and are
   refused as duplicates otherwise.
2. `passes_spellAll`, `repeats_spellAll`: the check goes past trees and counts their elements, or
   stops in the first start tag that has an attribute name twice.
3. `checkWellFormed_of_distinct`, `checkWellFormed_of_repeated`: the same for whole documents.
-/

namespace XmlTemplate.Xml

/-! ## Reading up to a result -/

/-- Reading the text piece by piece comes to the result. -/
inductive Ends : Progress → List Char → Except XmlError Progress → Prop
  | done (progress : Progress) : Ends progress [] (.ok progress)
  | piece {progress next : Progress} {c : Char} {text rest : List Char}
      {result : Except XmlError Progress} :
      readPiece progress (c :: text) = .ok (next, rest) → rest.length ≤ text.length →
      Ends next rest result → Ends progress (c :: text) result
  | fault {progress : Progress} {c : Char} {text : List Char} {error : XmlError} :
      readPiece progress (c :: text) = .error error → Ends progress (c :: text) (.error error)

theorem ends_of_readPiece {c : Char} {progress next : Progress} {chars rest : List Char}
    {result : Except XmlError Progress}
    (read : readPiece progress (c :: (chars ++ rest)) = .ok (next, rest))
    (ends : Ends next rest result) : Ends progress (c :: (chars ++ rest)) result := by
  have shorter : rest.length ≤ (chars ++ rest).length := by
    rw [List.length_append]
    exact Nat.le_add_left ..
  exact .piece read shorter ends

theorem readPieces_of_ends {progress : Progress} {text : List Char}
    {result : Except XmlError Progress} (ends : Ends progress text result) {bound : List Char}
    (enough : text.length ≤ bound.length) : readPieces bound progress text = result := by
  induction ends generalizing bound with
  | done progress => cases bound <;> rfl
  | piece read shorter ends ih =>
    cases bound with
    | nil => simp at enough
    | cons c bound =>
      rw [readPieces, read]
      exact ih (by simp only [List.length_cons] at enough; omega)
  | fault read =>
    cases bound with
    | nil => simp at enough
    | cons c bound => rw [readPieces, read]

/-- Reading goes past the characters, and meets so many elements in them and leaves none of them
open. -/
def Passes (chars : List Char) (elements : Nat) : Prop :=
  ∀ (names : List (List Char)) (count : Nat) (rest : List Char) (result : Except XmlError Progress),
    Ends ⟨names, count + elements⟩ rest result → Ends ⟨names, count⟩ (chars ++ rest) result

/-- Reading stops in the characters, at an attribute name that stands twice in its tag. -/
def Repeats (chars : List Char) : Prop :=
  ∀ (names : List (List Char)) (count : Nat), ∃ offset first, ∀ rest,
    Ends ⟨names, count⟩ (chars ++ rest) (.error (.attributes (.duplicated offset first)))

theorem Passes.append {front back : List Char} {first second : Nat} (one : Passes front first)
    (two : Passes back second) : Passes (front ++ back) (first + second) := by
  intro names count rest result ends
  rw [List.append_assoc]
  rw [← Nat.add_assoc] at ends
  exact one _ _ _ _ (two _ _ _ _ ends)

theorem Passes.repeats {front back : List Char} {elements : Nat} (one : Passes front elements)
    (two : Repeats back) : Repeats (front ++ back) := by
  intro names count
  obtain ⟨offset, first, stops⟩ := two names (count + elements)
  refine ⟨offset, first, fun rest => ?_⟩
  rw [List.append_assoc]
  exact one _ _ _ _ (stops rest)

theorem Repeats.append {front : List Char} (one : Repeats front) (back : List Char) :
    Repeats (front ++ back) := by
  intro names count
  obtain ⟨offset, first, stops⟩ := one names count
  refine ⟨offset, first, fun rest => ?_⟩
  rw [List.append_assoc]
  exact stops _

/-! ## Character data -/

theorem passes_nil : Passes [] 0 := fun _ _ _ _ ends => ends

/-- A piece that is read in one go and opens nothing. -/
theorem passes_of_readPiece {c : Char} {chars : List Char}
    (read : ∀ progress rest, readPiece progress (c :: (chars ++ rest)) = .ok (progress, rest)) :
    Passes (c :: chars) 0 := by
  intro names count rest result ends
  exact ends_of_readPiece (read _ rest) ends

theorem passes_textUnit (c : Char) : Passes (textUnit c) 0 := by
  unfold textUnit
  split
  · exact passes_of_readPiece fun _ _ => rfl
  · exact passes_of_readPiece fun _ _ => rfl
  · exact passes_of_readPiece fun _ _ => rfl
  · rename_i amp less greater
    exact passes_of_readPiece fun _ _ => readPiece_character less amp _ _

theorem passes_escapeText (raw : String) : Passes (escapeText raw).toList 0 := by
  rw [escapeText, String.toList_ofList]
  induction raw.toList with
  | nil => exact passes_nil
  | cons c chars ih => exact (passes_textUnit c).append ih

/-! ## Signs -/

theorem not_isSpace_of_not_sign {c : Char} (plain : isSign c = false) : isSpace c = false := by
  cases space : isSpace c with
  | false => rfl
  | true =>
    simp only [isSpace, Bool.or_eq_true, beq_iff_eq] at space
    rcases space with ((rfl | rfl) | rfl) | rfl <;> cases plain

theorem isKeyChar_of_not_sign {c : Char} (plain : isSign c = false) : isKeyChar c = true := by
  have equals : c ≠ '=' := by rintro rfl; cases plain
  simp [isKeyChar, equals, not_isSpace_of_not_sign plain]

theorem not_isQuote_of_not_sign {c : Char} (plain : isSign c = false) : isQuote c = false := by
  have double : c ≠ '"' := by rintro rfl; cases plain
  have single : c ≠ Char.ofNat 39 := by rintro rfl; cases plain
  simp [isQuote, double, single]

theorem quote_not_mem_attributeUnit (c : Char) : '"' ∉ attributeUnit c := by
  unfold attributeUnit
  split
  · decide
  · decide
  · decide
  · decide
  · rename_i quote
    exact fun same => quote (List.mem_singleton.mp same).symm

/-- An escaped value has no quote that would close it. -/
theorem ne_quote_of_attributeUnits (raw : List Char) :
    ∀ c ∈ raw.flatMap attributeUnit, c ≠ '"' := by
  rintro c member rfl
  obtain ⟨source, -, unit⟩ := List.mem_flatMap.mp member
  exact quote_not_mem_attributeUnit source unit

/-! ## Ends of tags -/

theorem splitTag_plain {chars text tag rest : List Char} (plain : ∀ c ∈ chars, isSign c = false)
    (split : splitTag none text = .ok (tag, rest)) :
    splitTag none (chars ++ text) = .ok (chars ++ tag, rest) := by
  induction chars with
  | nil => exact split
  | cons c chars ih =>
    obtain ⟨first, others⟩ := List.forall_mem_cons.mp plain
    have greater : c ≠ '>' := by rintro rfl; cases first
    rw [List.cons_append, splitTag]
    simp [greater, not_isQuote_of_not_sign first, ih others, Except.map]

theorem splitTag_quoted {quote : Char} {chars text tag rest : List Char}
    (inside : ∀ c ∈ chars, c ≠ quote) (split : splitTag none text = .ok (tag, rest)) :
    splitTag (some quote) (chars ++ quote :: text) = .ok (chars ++ quote :: tag, rest) := by
  induction chars with
  | nil => simp [splitTag, split, Except.map]
  | cons c chars ih =>
    obtain ⟨first, others⟩ := List.forall_mem_cons.mp inside
    rw [List.cons_append, splitTag]
    simp [first, ih others, Except.map]

theorem splitTag_quote {text tag rest : List Char}
    (split : splitTag (some '"') text = .ok (tag, rest)) :
    splitTag none ('"' :: text) = .ok ('"' :: tag, rest) := by
  rw [splitTag]
  simp [isQuote, split, Except.map]

/-- Spaces and equals signs stand between names and values. -/
theorem splitTag_cons {c : Char} {text tag rest : List Char} (other : c ≠ '>')
    (plain : isQuote c = false) (split : splitTag none text = .ok (tag, rest)) :
    splitTag none (c :: text) = .ok (c :: tag, rest) := by
  rw [splitTag]
  simp [other, plain, split, Except.map]

theorem splitTag_attributes {items : List (String × String)}
    (plain : ∀ item ∈ items, IsPlainName item.1) (rest : List Char) :
    splitTag none ((spellAttributes items).toList ++ '>' :: rest) =
      .ok ((spellAttributes items).toList, rest) := by
  induction items with
  | nil => simp [spellAttributes, splitTag]
  | cons item items ih =>
    obtain ⟨first, others⟩ := List.forall_mem_cons.mp plain
    have value := splitTag_quoted (ne_quote_of_attributeUnits item.2.toList) (ih others)
    have opened := splitTag_quote value
    have named := splitTag_plain first.2 (splitTag_cons (c := '=') (by decide) (by decide) opened)
    have spaced := splitTag_cons (c := ' ') (by decide) (by decide) named
    simpa [spellAttributes, String.toList_append, toList_spellAttribute] using spaced

/-! ## Attributes -/

theorem splitValue?_quoted {quote : Char} {chars : List Char} (inside : ∀ c ∈ chars, c ≠ quote)
    (rest : List Char) : splitValue? quote (chars ++ quote :: rest) = some (chars, rest) := by
  induction chars with
  | nil => simp [splitValue?]
  | cons c chars ih =>
    obtain ⟨first, others⟩ := List.forall_mem_cons.mp inside
    simp [splitValue?, first, ih others]

theorem span_isSpace {c : Char} (plain : isSpace c = false) (chars : List Char) :
    (c :: chars).takeWhile isSpace = [] ∧ (c :: chars).dropWhile isSpace = c :: chars := by
  simp [plain]

theorem span_isKeyChar {chars : List Char} (key : ∀ c ∈ chars, isKeyChar c = true)
    (rest : List Char) :
    (chars ++ '=' :: rest).takeWhile isKeyChar = chars ∧
      (chars ++ '=' :: rest).dropWhile isKeyChar = '=' :: rest := by
  have equals : isKeyChar '=' = false := by decide
  rw [List.takeWhile_append_of_pos key, List.dropWhile_append_of_pos key]
  simp [equals]

theorem find?_key_eq_none {seen : List (List Char × Nat)} {key : List Char} :
    (seen.find? fun entry => entry.1 == key) = none ↔ key ∉ seen.map Prod.fst := by
  simp only [List.find?_eq_none, List.mem_map, beq_iff_eq, not_exists, not_and]

/-- An attribute is refused if its name was seen, and otherwise the next ones are checked. -/
theorem checkKeys_spellAttribute {item : String × String} (plain : IsPlainName item.1) (stop : Nat)
    (sign : Char) (bound : List Char) (seen : List (List Char × Nat)) (offset : Nat)
    (text : List Char) :
    ∃ start next,
      (item.1.toList ∈ seen.map Prod.fst → ∃ first,
        checkKeys stop (sign :: bound) seen offset ((spellAttribute item).toList ++ text) =
          .error (.duplicated start first)) ∧
      (item.1.toList ∉ seen.map Prod.fst →
        checkKeys stop (sign :: bound) seen offset ((spellAttribute item).toList ++ text) =
          checkKeys stop bound (seen ++ [(item.1.toList, start)]) next text) := by
  have signs := plain.2
  have shape : (spellAttribute item).toList ++ text = ' ' :: (item.1.toList ++
      '=' :: '"' :: (item.2.toList.flatMap attributeUnit ++ '"' :: text)) := by
    simp [toList_spellAttribute]
  have value := splitValue?_quoted (ne_quote_of_attributeUnits item.2.toList) text
  rw [shape, ← find?_key_eq_none]
  cases spelled : item.1.toList with
  | nil => exact absurd (String.toList_eq_nil_iff.mp spelled) plain.1
  | cons first more =>
    rw [spelled] at signs
    obtain ⟨starts, follow⟩ := List.forall_mem_cons.mp signs
    have key := span_isKeyChar fun c member => isKeyChar_of_not_sign (follow c member)
    have atName := span_isSpace (not_isSpace_of_not_sign starts)
    have atEquals := span_isSpace (c := '=') (by decide)
    have atQuote := span_isSpace (c := '"') (by decide)
    have space : isSpace ' ' = true := by decide
    have quote : isQuote '"' = true := by decide
    refine ⟨offset + byteLength [' '], offset + byteLength [' '] + byteLength (first :: more) +
      byteLength [] + 1 + byteLength [] + 2 + byteLength (item.2.toList.flatMap attributeUnit),
      fun member => ?_, fun fresh => ?_⟩
    · obtain ⟨entry, found⟩ := Option.ne_none_iff_exists'.mp fun fresh =>
        find?_key_eq_none.mp fresh member
      refine ⟨entry.2, ?_⟩
      simp only [checkKeys, List.cons_append, List.takeWhile_cons_of_pos space,
        List.dropWhile_cons_of_pos space, atName, key, atEquals, found]
    · simp only [checkKeys, List.cons_append, List.takeWhile_cons_of_pos space,
        List.dropWhile_cons_of_pos space, atName, key, atEquals, fresh, atQuote, quote, value,
        if_true]

/-- The names of the attributes and those that were seen before are distinct, or the check finds the
first of them that was seen. -/
theorem checkKeys_spellAttributes {items : List (String × String)}
    (plain : ∀ item ∈ items, IsPlainName item.1) (stop : Nat) {bound : List Char}
    (enough : items.length ≤ bound.length) {seen : List (List Char × Nat)}
    (distinct : (seen.map Prod.fst).Nodup) (offset : Nat) :
    if (seen.map Prod.fst ++ items.map fun item => item.1.toList).Nodup then
      checkKeys stop bound seen offset (spellAttributes items).toList = .ok ()
    else ∃ start first,
      checkKeys stop bound seen offset (spellAttributes items).toList =
        .error (.duplicated start first) := by
  induction items generalizing bound seen offset with
  | nil =>
    rw [List.map_nil, List.append_nil, if_pos distinct]
    cases bound <;> simp [spellAttributes, checkKeys]
  | cons item items ih =>
    obtain ⟨first, others⟩ := List.forall_mem_cons.mp plain
    cases bound with
    | nil => simp at enough
    | cons sign bound =>
      obtain ⟨start, next, refused, read⟩ := checkKeys_spellAttribute first stop sign bound seen
        offset (spellAttributes items).toList
      rw [spellAttributes, String.toList_append]
      by_cases twice : item.1.toList ∈ seen.map Prod.fst
      · have repeated :
            ¬ (seen.map Prod.fst ++ (item :: items).map fun item => item.1.toList).Nodup :=
          fun nodup => (List.nodup_append.mp nodup).2.2 _ twice _ List.mem_cons_self rfl
        obtain ⟨before, error⟩ := refused twice
        rw [if_neg repeated]
        exact ⟨start, before, error⟩
      · have grown : ((seen ++ [(item.1.toList, start)]).map Prod.fst).Nodup := by
          rw [List.map_append, List.nodup_append]
          refine ⟨distinct, by simp, ?_⟩
          rintro name before _ last rfl
          have same : name = item.1.toList := List.mem_singleton.mp last
          exact twice (same ▸ before)
        have rest := ih others (Nat.le_of_succ_le_succ enough) grown next
        rw [read twice]
        simpa using rest

/-- A start tag has no attribute name twice. -/
def Start.Distinct (start : Start) : Prop := (start.attributes.map Prod.fst).Nodup

instance (start : Start) : Decidable start.Distinct :=
  inferInstanceAs (Decidable (start.attributes.map Prod.fst).Nodup)

/-- A start tag between its angle brackets. -/
def Start.inside (start : Start) : List Char :=
  start.tag.toList ++ (spellAttributes start.attributes).toList

theorem length_le_spellAttributes (items : List (String × String)) :
    items.length ≤ (spellAttributes items).toList.length := by
  induction items with
  | nil => simp
  | cons item items ih =>
    rw [spellAttributes, String.toList_append, toList_spellAttribute]
    simp only [List.length_cons, List.length_append]
    omega

/-- The name of a start tag ends at the first space. -/
theorem span_inside {start : Start} (plain : IsPlainName start.tag) :
    (start.inside.takeWhile fun c => !isSpace c) = start.tag.toList ∧
      (start.inside.dropWhile fun c => !isSpace c) = (spellAttributes start.attributes).toList := by
  have noSpace : ∀ c ∈ start.tag.toList, (!isSpace c) = true := fun c member => by
    simp [not_isSpace_of_not_sign (plain.2 c member)]
  have space : isSpace ' ' = true := by decide
  rw [Start.inside, List.takeWhile_append_of_pos noSpace, List.dropWhile_append_of_pos noSpace]
  cases start.attributes with
  | nil => simp [spellAttributes]
  | cons item items =>
    simp [spellAttributes, String.toList_append, toList_spellAttribute, space]

theorem checkAttributes_inside {start : Start} (named : start.Named) :
    if start.Distinct then checkAttributes start.inside = .ok ()
    else ∃ offset first, checkAttributes start.inside = .error (.duplicated offset first) := by
  have plain := named.plain
  have enough : start.attributes.length ≤ start.inside.length := by
    have length := length_le_spellAttributes start.attributes
    rw [Start.inside, List.length_append]
    omega
  have distinct : start.Distinct ↔ (start.attributes.map fun item => item.1.toList).Nodup := by
    simp only [Start.Distinct, List.Nodup, List.pairwise_map, ne_eq, String.toList_inj]
  have noneSeen : (([] : List (List Char × Nat)).map Prod.fst).Nodup := List.nodup_nil
  have checked := checkKeys_spellAttributes plain.2 (byteLength start.inside) enough noneSeen
    (byteLength start.tag.toList)
  simp only [checkAttributes, span_inside plain.1, distinct]
  simpa using checked

/-! ## Tags -/

theorem readPiece_tag {first : Char} (starts : isNameStart first = true)
    {text tag rest : List Char} (split : splitTag none (first :: text) = .ok (tag, rest))
    (progress : Progress) :
    readPiece progress ('<' :: first :: text) =
      ((openElement progress tag).mapError .attributes).map fun next => (next, rest) := by
  have declaration : first ≠ '!' := by rintro rfl; revert starts; decide
  have instruction : first ≠ '?' := by rintro rfl; revert starts; decide
  have closing : first ≠ '/' := by rintro rfl; revert starts; decide
  simp only [readPiece, List.cons.injEq, declaration, instruction, closing, false_and, imp_false,
    not_false_eq_true, implies_true, split]
  cases openElement progress tag <;> rfl

theorem getLast?_spellAttributes {items : List (String × String)} {last : Char}
    (ends : (spellAttributes items).toList.getLast? = some last) : last = '"' := by
  induction items with
  | nil => simp [spellAttributes] at ends
  | cons item items ih =>
    rw [spellAttributes, String.toList_append, List.getLast?_append] at ends
    cases others : (spellAttributes items).toList.getLast? with
    | some c =>
      simp only [others, Option.some_or] at ends
      exact ih (others.trans ends)
    | none =>
      have quoted : (spellAttribute item).toList.getLast? = some '"' := by
        rw [spellAttribute, String.toList_append]
        exact List.getLast?_concat
      simp only [others, Option.none_or, quoted, Option.some.injEq] at ends
      exact ends.symm

/-- No start tag looks like that of an empty element: a name has no slash, and a value ends with a
quote. -/
theorem getLast?_inside {start : Start} (plain : IsPlainName start.tag) :
    start.inside.getLast? ≠ some '/' := by
  intro slash
  rw [Start.inside, List.getLast?_append] at slash
  cases last : (spellAttributes start.attributes).toList.getLast? with
  | some c =>
    simp only [last, Option.some_or, Option.some.injEq] at slash
    have quote := getLast?_spellAttributes last
    rw [slash] at quote
    cases quote
  | none =>
    simp only [last, Option.none_or] at slash
    have sign : isSign '/' = false := plain.2 _ (List.mem_of_getLast? slash)
    cases sign

theorem openElement_inside {start : Start} (plain : IsPlainName start.tag) (progress : Progress) :
    openElement progress start.inside =
      (checkAttributes start.inside).map fun _ =>
        ⟨start.tag.toList :: progress.openNames, progress.elements + 1⟩ := by
  rw [openElement, if_neg (getLast?_inside plain), (span_inside plain).1]
  cases checkAttributes start.inside <;> rfl

theorem readPiece_startTag {start : Start} (named : start.Named) (progress : Progress)
    (rest : List Char) :
    readPiece progress ((startTag start.tag start.attributes).toList ++ rest) =
      ((checkAttributes start.inside).mapError .attributes).map fun _ =>
        (⟨start.tag.toList :: progress.openNames, progress.elements + 1⟩, rest) := by
  obtain ⟨plainTag, plain⟩ := named.plain
  obtain ⟨first, more, spelled, starts, -⟩ := checkName_eq_ok_iff.mp (checkName_of_checkTag named.tag)
  have split : splitTag none (start.inside ++ '>' :: rest) = .ok (start.inside, rest) := by
    rw [Start.inside, List.append_assoc]
    exact splitTag_plain plainTag.2 (splitTag_attributes plain rest)
  have shape : (startTag start.tag start.attributes).toList ++ rest =
      '<' :: (start.inside ++ '>' :: rest) := by
    simp [toList_startTag, Start.inside]
  have begins : start.inside ++ '>' :: rest =
      first :: (more ++ ((spellAttributes start.attributes).toList ++ '>' :: rest)) := by
    simp [Start.inside, spelled]
  rw [begins] at shape split
  rw [shape, readPiece_tag starts split, openElement_inside plainTag]
  cases checkAttributes start.inside <;> rfl

theorem endName_plain {tag : List Char} (plain : ∀ c ∈ tag, isSign c = false) :
    endName tag = tag := by
  have kept : tag.reverse.dropWhile isSpace = tag.reverse := by
    cases backward : tag.reverse with
    | nil => rfl
    | cons last front =>
      have member : last ∈ tag := List.mem_reverse.mp (backward ▸ List.mem_cons_self)
      simp [not_isSpace_of_not_sign (plain last member)]
  rw [endName, trimEnd, kept, List.reverse_reverse, ite_self]

theorem readPiece_endTag {tag : String} (plain : IsPlainName tag) (names : List (List Char))
    (count : Nat) (rest : List Char) :
    readPiece ⟨tag.toList :: names, count⟩ ((endTag tag).toList ++ rest) =
      .ok (⟨names, count⟩, rest) := by
  have shape : (endTag tag).toList ++ rest = '<' :: '/' :: (tag.toList ++ '>' :: rest) := by
    simp [toList_endTag]
  have split : splitTag none (tag.toList ++ '>' :: rest) = .ok (tag.toList, rest) := by
    have closing : splitTag none ('>' :: rest) = .ok ([], rest) := rfl
    simpa using splitTag_plain plain.2 closing
  have closed : closeElement ⟨tag.toList :: names, count⟩ tag.toList = .ok ⟨names, count⟩ :=
    closeElement_open (by rw [endName_plain plain.2])
  rw [shape, readPiece, split]
  simp only [closed]

/-! ## Elements -/

theorem ends_startTag {start : Start} (named : start.Named) (distinct : start.Distinct)
    {names : List (List Char)} {count : Nat} {rest : List Char} {result : Except XmlError Progress}
    (ends : Ends ⟨start.tag.toList :: names, count + 1⟩ rest result) :
    Ends ⟨names, count⟩ ((startTag start.tag start.attributes).toList ++ rest) result := by
  have checked := checkAttributes_inside named
  rw [if_pos distinct] at checked
  have read := readPiece_startTag named ⟨names, count⟩ rest
  rw [checked] at read
  rw [toList_startTag] at read ⊢
  exact ends_of_readPiece read ends

theorem repeats_startTag {start : Start} (named : start.Named) (repeated : ¬ start.Distinct) :
    Repeats (startTag start.tag start.attributes).toList := by
  intro names count
  have checked := checkAttributes_inside named
  rw [if_neg repeated] at checked
  obtain ⟨offset, first, refused⟩ := checked
  refine ⟨offset, first, fun rest => ?_⟩
  have read := readPiece_startTag named ⟨names, count⟩ rest
  rw [refused] at read
  rw [toList_startTag] at read ⊢
  exact .fault read

theorem ends_endTag {tag : String} (plain : IsPlainName tag) {names : List (List Char)}
    {count : Nat} {rest : List Char} {result : Except XmlError Progress}
    (ends : Ends ⟨names, count⟩ rest result) :
    Ends ⟨tag.toList :: names, count⟩ ((endTag tag).toList ++ rest) result := by
  have read := readPiece_endTag plain names count rest
  rw [toList_endTag] at read ⊢
  exact ends_of_readPiece read ends

theorem passes_element {start : Start} (named : start.Named) (distinct : start.Distinct)
    {body : List Char} {elements : Nat} (inner : Passes body elements) :
    Passes ((startTag start.tag start.attributes).toList ++ body ++ (endTag start.tag).toList)
      (elements + 1) := by
  intro names count rest result ends
  rw [List.append_assoc, List.append_assoc]
  rw [Nat.add_comm elements, ← Nat.add_assoc] at ends
  exact ends_startTag named distinct (inner _ _ _ _ (ends_endTag named.plain.1 ends))

theorem repeats_element {start : Start} (named : start.Named) {body : List Char}
    (inner : ¬ start.Distinct ∨ Repeats body) :
    Repeats ((startTag start.tag start.attributes).toList ++ body ++ (endTag start.tag).toList) := by
  refine Repeats.append ?_ _
  by_cases distinct : start.Distinct
  · intro names count
    obtain ⟨offset, first, stops⟩ := inner.resolve_left (not_not_intro distinct)
      (start.tag.toList :: names) (count + 1)
    refine ⟨offset, first, fun rest => ?_⟩
    rw [List.append_assoc]
    exact ends_startTag named distinct (stops rest)
  · exact (repeats_startTag named distinct).append body

mutual
theorem passes_spell {tree : Tree} (named : ∀ start ∈ tree.starts, start.Named)
    (distinct : ∀ start ∈ tree.starts, start.Distinct) :
    Passes tree.spell.toList tree.starts.length := by
  cases tree with
  | element tag attributes children =>
    obtain ⟨first, inner⟩ := List.forall_mem_cons.mp named
    obtain ⟨firstDistinct, innerDistinct⟩ := List.forall_mem_cons.mp distinct
    rw [Tree.spell, String.toList_append, String.toList_append]
    exact passes_element first firstDistinct (passes_spellAll inner innerDistinct)
  | text raw => exact passes_escapeText raw

/-- Trees without a repeated attribute name are gone past, and each of their elements counts. -/
theorem passes_spellAll {forest : List Tree} (named : AllNamed forest)
    (distinct : ∀ start ∈ startsAll forest, start.Distinct) :
    Passes (spellAll forest).toList (startsAll forest).length := by
  cases forest with
  | nil => exact passes_nil
  | cons tree trees =>
    obtain ⟨first, others⟩ := List.forall_mem_append.mp named
    obtain ⟨firstDistinct, othersDistinct⟩ := List.forall_mem_append.mp distinct
    rw [spellAll, String.toList_append, startsAll, List.length_append]
    exact (passes_spell first firstDistinct).append (passes_spellAll others othersDistinct)
end

mutual
theorem repeats_spell {tree : Tree} (named : ∀ start ∈ tree.starts, start.Named)
    (repeated : ∃ start ∈ tree.starts, ¬ start.Distinct) : Repeats tree.spell.toList := by
  cases tree with
  | element tag attributes children =>
    obtain ⟨first, inner⟩ := List.forall_mem_cons.mp named
    rw [Tree.spell, String.toList_append, String.toList_append]
    refine repeats_element first ?_
    obtain ⟨start, member, twice⟩ := repeated
    rcases List.mem_cons.mp member with rfl | member
    · exact .inl twice
    · exact .inr (repeats_spellAll inner ⟨start, member, twice⟩)
  | text raw =>
    obtain ⟨start, member, -⟩ := repeated
    cases member

/-- The first start tag with a repeated attribute name is refused. -/
theorem repeats_spellAll {forest : List Tree} (named : AllNamed forest)
    (repeated : ∃ start ∈ startsAll forest, ¬ start.Distinct) :
    Repeats (spellAll forest).toList := by
  cases forest with
  | nil =>
    obtain ⟨start, member, -⟩ := repeated
    cases member
  | cons tree trees =>
    obtain ⟨first, others⟩ := List.forall_mem_append.mp named
    rw [spellAll, String.toList_append]
    by_cases early : ∃ start ∈ tree.starts, ¬ start.Distinct
    · exact (repeats_spell first early).append _
    · have distinct : ∀ start ∈ tree.starts, start.Distinct := by simpa using early
      obtain ⟨start, member, twice⟩ := repeated
      have later : start ∈ startsAll trees :=
        (List.mem_append.mp member).resolve_left fun here => twice (distinct start here)
      exact (passes_spell first distinct).repeats (repeats_spellAll others ⟨start, later, twice⟩)
end

/-! ## Documents -/

/-- A byte order mark is skipped at the start, where it would be read as character data. -/
theorem Ends.dropMark {progress : Progress} {text : List Char} {result : Except XmlError Progress}
    (ends : Ends progress text result) : Ends progress (dropMark text) result := by
  cases text with
  | nil => exact ends
  | cons c text =>
    by_cases mark : c = Char.ofNat 0xFEFF
    · have less : c ≠ '<' := by rw [mark]; decide
      have amp : c ≠ '&' := by rw [mark]; decide
      have data := readPiece_character less amp progress text
      rw [Xml.dropMark, if_pos mark]
      cases ends with
      | piece read _ ends =>
        cases data.symm.trans read
        exact ends
      | fault read => cases data.symm.trans read
    · rw [Xml.dropMark, if_neg mark]
      exact ends

theorem readPieces_dropMark {xml : String} {result : Except XmlError Progress}
    (ends : Ends ⟨[], 0⟩ xml.toList result) :
    readPieces (dropMark xml.toList) ⟨[], 0⟩ (dropMark xml.toList) = result :=
  readPieces_of_ends ends.dropMark (Nat.le_refl _)

/-- The spelling of trees is well formed if no start tag has an attribute name twice, and then all the
elements are counted. -/
theorem checkWellFormed_of_distinct {forest : List Tree} (named : AllNamed forest)
    (distinct : ∀ start ∈ startsAll forest, start.Distinct) :
    checkWellFormed (spellAll forest) = .ok (startsAll forest).length := by
  have ends := passes_spellAll named distinct [] 0 [] _ (.done _)
  rw [List.append_nil, Nat.zero_add] at ends
  rw [checkWellFormed, readPieces_dropMark ends]

/-- A repeated attribute name is the one fault that the spelling of trees can have. -/
theorem checkWellFormed_of_repeated {forest : List Tree} (named : AllNamed forest)
    (repeated : ∃ start ∈ startsAll forest, ¬ start.Distinct) :
    ∃ offset first,
      checkWellFormed (spellAll forest) = .error (.attributes (.duplicated offset first)) := by
  obtain ⟨offset, first, stops⟩ := repeats_spellAll named repeated [] 0
  have ends := stops []
  rw [List.append_nil] at ends
  refine ⟨offset, first, ?_⟩
  rw [checkWellFormed, readPieces_dropMark ends]

theorem duplicated_of_checkWellFormed_error {forest : List Tree} (named : AllNamed forest)
    {fault : XmlError} (refused : checkWellFormed (spellAll forest) = .error fault) :
    ∃ offset first, fault = .attributes (.duplicated offset first) := by
  by_cases distinct : ∀ start ∈ startsAll forest, start.Distinct
  · cases (checkWellFormed_of_distinct named distinct).symm.trans refused
  · obtain ⟨offset, first, repeated⟩ := checkWellFormed_of_repeated named (by simpa using distinct)
    exact ⟨offset, first, Except.error.inj (refused.symm.trans repeated)⟩

end XmlTemplate.Xml
