import XmlTemplate.Xml.Escape
import XmlTemplate.Xml.Name

/-!
# Reading fragments

A fragment is a sequence of elements and texts. It is spelled with start tags whose attributes stand
in double quotes, end tags, and the four references of escaping. The reader takes a text character
by character and accepts nothing else: no other reference, no sign of markup in a name, no end tag of
another name.

Results:
1. `readFrom_escapeText`, `readFrom_escapeAttribute`: escaped data is read back as it was.
2. `readFrom_startTag`, `readFrom_endTag`: a start tag opens an element and its end tag closes it.
3. `readFragment_spellAll`: the spelling of trees is read as these trees, with adjacent texts merged
   and empty texts dropped.
-/

namespace XmlTemplate.Xml

/-! ## Trees -/

/-- An element or a text, with unescaped values and character data. -/
inductive Tree where
  | element (tag : String) (attributes : List (String × String)) (children : List Tree)
  | text (raw : String)
  deriving Repr

/-- A text in front of trees: it joins a text that follows, and an empty one adds nothing. -/
def joinText (raw : String) : List Tree → List Tree
  | .text next :: trees => .text (raw ++ next) :: trees
  | trees => if raw = "" then trees else .text raw :: trees

/-- Adjacent texts are merged and empty texts dropped, on the outermost level. -/
def joinTexts : List Tree → List Tree
  | [] => []
  | .text raw :: trees => joinText raw (joinTexts trees)
  | tree :: trees => tree :: joinTexts trees

mutual
/-- The tree with the texts inside it merged. -/
def Tree.merged : Tree → Tree
  | .element tag attributes children => .element tag attributes (joinTexts (mergedAll children))
  | .text raw => .text raw

/-- The trees with the texts inside each of them merged. -/
def mergedAll : List Tree → List Tree
  | [] => []
  | tree :: trees => tree.merged :: mergedAll trees
end

/-- Adjacent texts are merged and empty texts dropped, on every level. -/
def merge (forest : List Tree) : List Tree := joinTexts (mergedAll forest)

@[simp] theorem joinText_empty (trees : List Tree) : joinText "" trees = trees := by
  unfold joinText
  split <;> simp

theorem joinText_joinText (first second : String) (trees : List Tree) :
    joinText first (joinText second trees) = joinText (first ++ second) trees := by
  by_cases empty : second = ""
  · simp [empty]
  · match trees with
    | [] => simp [joinText, empty]
    | .text next :: trees => simp [joinText, String.append_assoc]
    | .element .. :: trees => simp [joinText, empty]

/-! ## Spelling -/

/-- An attribute with the space before it. -/
def spellAttribute (item : String × String) : String :=
  " " ++ item.1 ++ "=\"" ++ escapeAttribute item.2 ++ "\""

/-- Attributes in order. -/
def spellAttributes : List (String × String) → String
  | [] => ""
  | item :: items => spellAttribute item ++ spellAttributes items

/-- The start tag of an element. -/
def startTag (tag : String) (attributes : List (String × String)) : String :=
  "<" ++ tag ++ spellAttributes attributes ++ ">"

/-- The end tag of an element. -/
def endTag (tag : String) : String := "</" ++ tag ++ ">"

mutual
/-- The text that stands for a tree. -/
def Tree.spell : Tree → String
  | .element tag attributes children => startTag tag attributes ++ spellAll children ++ endTag tag
  | .text raw => escapeText raw

/-- The text that stands for trees. -/
def spellAll : List Tree → String
  | [] => ""
  | tree :: trees => tree.spell ++ spellAll trees
end

theorem spellAll_append (left right : List Tree) :
    spellAll (left ++ right) = spellAll left ++ spellAll right := by
  induction left with
  | nil => simp [spellAll]
  | cons tree trees ih => simp [spellAll, ih, String.append_assoc]

theorem toList_spellAttribute (item : String × String) :
    (spellAttribute item).toList =
      ' ' :: (item.1.toList ++ '=' :: '"' :: (item.2.toList.flatMap attributeUnit ++ ['"'])) := by
  simp [spellAttribute, escapeAttribute_eq, String.toList_append]

theorem toList_startTag (tag : String) (attributes : List (String × String)) :
    (startTag tag attributes).toList =
      '<' :: (tag.toList ++ ((spellAttributes attributes).toList ++ ['>'])) := by
  simp [startTag, String.toList_append]

theorem toList_endTag (tag : String) : (endTag tag).toList = '<' :: '/' :: (tag.toList ++ ['>']) := by
  simp [endTag, String.toList_append]

/-! ## Reader -/

/-- The signs that no name has. -/
def signs : List Char := ['<', '>', '&', '"', '\'', '=', '/', ' ', '\t', '\n', '\r']

/-- A sign of markup. -/
def isSign (c : Char) : Bool := signs.contains c

/-- A start tag as far as it was read. -/
structure Start where
  tag : String
  attributes : List (String × String)
  deriving DecidableEq, Repr

/-- What a name stands for. -/
inductive Naming where
  | startTag
  | endTag
  | attribute (start : Start)
  deriving DecidableEq, Repr

/-- What the reader stands in. A reference in data is the name after its ampersand. -/
inductive Place where
  | content (reference : Option (List Char))
  /-- After a less-than sign. -/
  | tag
  | name (naming : Naming) (seen : List Char)
  /-- After an equals sign. -/
  | quote (start : Start) (name : String)
  | value (start : Start) (name : String) (seen : List Char) (reference : Option (List Char))
  /-- After the closing quote of a value. -/
  | afterValue (start : Start)

/-- An element that is open, with the trees before it in its parent, the last one first. -/
structure Frame where
  start : Start
  before : List Tree

/-- The elements that are open, the innermost first, and the trees that were read inside the innermost
one, the last one first. -/
structure Reader where
  place : Place
  opened : List Frame
  inner : List Tree

namespace Reader

/-- The character of a reference. -/
def entity? : List Char → Option Char
  | ['a', 'm', 'p'] => some '&'
  | ['l', 't'] => some '<'
  | ['g', 't'] => some '>'
  | ['q', 'u', 'o', 't'] => some '"'
  | _ => none

/-- A character of data, inside a reference or not: the reference it leaves open, and the character
that it stands for or completes. -/
def data? : Option (List Char) → Char → Option (Option (List Char) × List Char)
  | none, '&' => some (some [], [])
  | none, '<' => none
  | none, '>' => none
  | none, c => some (none, [c])
  | some name, ';' => (entity? name).map fun c => (none, [c])
  | some name, c => some (some (name ++ [c]), [])

/-- A start tag is complete. -/
def enter (reader : Reader) (start : Start) : Reader :=
  ⟨.content none, ⟨start, reader.inner⟩ :: reader.opened, []⟩

/-- An end tag is complete: it has the name of the innermost element that is open. -/
def leave? (reader : Reader) (name : String) : Option Reader :=
  match reader.opened with
  | [] => none
  | ⟨start, before⟩ :: opened =>
    if name = start.tag then
      some ⟨.content none, opened,
        .element start.tag start.attributes (joinTexts reader.inner.reverse) :: before⟩
    else none

/-- The reader goes on to another place. -/
def moveTo (reader : Reader) (place : Place) : Reader := { reader with place := place }

/-- A name is complete, and the sign after it tells how the tag goes on. -/
def named? (reader : Reader) (name : String) : Naming → Char → Option Reader
  | .endTag, '>' => reader.leave? name
  | .startTag, '>' => some (reader.enter ⟨name, []⟩)
  | .startTag, ' ' => some (reader.moveTo (.name (.attribute ⟨name, []⟩) []))
  | .attribute start, '=' => some (reader.moveTo (.quote start name))
  | _, _ => none

/-- The next character is read. -/
def next? (reader : Reader) (c : Char) : Option Reader :=
  match reader.place with
  | .content reference =>
    if reference = none ∧ c = '<' then some (reader.moveTo .tag)
    else (data? reference c).map fun (reference, chars) =>
      ⟨.content reference, reader.opened, chars.map (fun c => .text c.toString) ++ reader.inner⟩
  | .tag =>
    if c = '/' then some (reader.moveTo (.name .endTag []))
    else if isSign c then none
    else some (reader.moveTo (.name .startTag [c]))
  | .name naming seen =>
    if isSign c then
      if seen = [] then none else reader.named? (String.ofList seen) naming c
    else some (reader.moveTo (.name naming (seen ++ [c])))
  | .quote start name => if c = '"' then some (reader.moveTo (.value start name [] none)) else none
  | .value start name seen reference =>
    if reference = none ∧ c = '"' then
      some (reader.moveTo
        (.afterValue ⟨start.tag, start.attributes ++ [(name, String.ofList seen)]⟩))
    else (data? reference c).map fun (reference, chars) =>
      reader.moveTo (.value start name (seen ++ chars) reference)
  | .afterValue start =>
    if c = '>' then some (reader.enter start)
    else if c = ' ' then some (reader.moveTo (.name (.attribute start) []))
    else none

/-- The characters are read from left to right. -/
def readFrom (reader : Reader) (chars : List Char) : Option Reader :=
  chars.foldlM next? reader

/-- At the end of a fragment no tag and no element is open. -/
def finish? (reader : Reader) : Option (List Tree) :=
  match reader.place, reader.opened with
  | .content none, [] => some (joinTexts reader.inner.reverse)
  | _, _ => none

end Reader

/-- The trees of a fragment. -/
def readFragment (text : String) : Option (List Tree) :=
  (Reader.readFrom ⟨.content none, [], []⟩ text.toList).bind Reader.finish?

/-! ## Names and data -/

/-- A name that the reader takes as one: it has a character and no sign of markup. -/
def IsPlainName (name : String) : Prop :=
  name ≠ "" ∧ ∀ c ∈ name.toList, isSign c = false

theorem not_sign_of_isNameChar {c : Char} (part : isNameChar c = true) :
    isSign c = false := by
  have noPart : signs.all (fun sign => !isNameChar sign) = true := by decide
  cases listed : isSign c with
  | false => rfl
  | true =>
    have outside := List.all_eq_true.mp noPart c (by simpa [isSign] using listed)
    simp [part] at outside

theorem isNameChar_of_isNameStart {c : Char} (starts : isNameStart c = true) :
    isNameChar c = true := by
  simp only [isNameStart, Bool.and_eq_true] at starts
  simp [isNameChar, starts.1]

theorem isPlainName_of_checkName {name : String} (passes : checkName name = .ok ()) :
    IsPlainName name := by
  obtain ⟨first, rest, spelled, starts, follow⟩ := checkName_eq_ok_iff.mp passes
  refine ⟨fun empty => by simp [empty] at spelled, fun c member => ?_⟩
  rw [spelled, List.mem_cons] at member
  rcases member with rfl | member
  · exact not_sign_of_isNameChar (isNameChar_of_isNameStart starts)
  · exact not_sign_of_isNameChar (follow c member)

theorem checkName_of_checkTag {name : String} (passes : checkTag name = .ok ()) :
    checkName name = .ok () := by
  cases checked : checkName name with
  | error cause => simp [checkTag, checked, bind, Except.bind] at passes
  | ok done => rfl

theorem isPlainName_of_checkTag {name : String} (passes : checkTag name = .ok ()) :
    IsPlainName name :=
  isPlainName_of_checkName (checkName_of_checkTag passes)

namespace Reader

theorem readFrom_append (reader : Reader) (front back : List Char) :
    reader.readFrom (front ++ back) = (reader.readFrom front).bind (·.readFrom back) := by
  simp [readFrom, List.foldlM_append]

theorem readFrom_cons (reader : Reader) (c : Char) (chars : List Char) :
    reader.readFrom (c :: chars) = (reader.next? c).bind (·.readFrom chars) := by
  simp [readFrom]

@[simp] theorem readFrom_nil (reader : Reader) : reader.readFrom [] = some reader := rfl

theorem data?_plain {c : Char} (amp : c ≠ '&') (less : c ≠ '<') (greater : c ≠ '>') :
    data? none c = some (none, [c]) := by
  unfold data?
  split <;> simp_all

theorem readFrom_textUnit (c : Char) (opened : List Frame) (inner : List Tree) :
    readFrom ⟨.content none, opened, inner⟩ (textUnit c) =
      some ⟨.content none, opened, .text c.toString :: inner⟩ := by
  unfold textUnit
  split
  · rfl
  · rfl
  · rfl
  · rename_i amp less greater
    have outside : ¬ c = '<' := less
    simp [readFrom_cons, next?, outside, data?_plain amp less greater]

theorem readFrom_attributeUnit (c : Char) (start : Start) (name : String) (seen : List Char)
    (opened : List Frame) (inner : List Tree) :
    readFrom ⟨.value start name seen none, opened, inner⟩ (attributeUnit c) =
      some ⟨.value start name (seen ++ [c]) none, opened, inner⟩ := by
  unfold attributeUnit
  split
  · simp [readFrom_cons, next?, data?, entity?, moveTo]
  · simp [readFrom_cons, next?, data?, entity?, moveTo]
  · simp [readFrom_cons, next?, data?, entity?, moveTo]
  · simp [readFrom_cons, next?, data?, entity?, moveTo]
  · rename_i amp less greater quote
    have inside : ¬ c = '"' := quote
    simp [readFrom_cons, next?, inside, data?_plain amp less greater, moveTo]

/-- A text as the reader collects it: a text for each character. -/
def collected (chars : List Char) : List Tree := chars.map fun c => .text c.toString

theorem readFrom_escapeText (raw : List Char) (opened : List Frame) (inner : List Tree) :
    readFrom ⟨.content none, opened, inner⟩ (raw.flatMap textUnit) =
      some ⟨.content none, opened, (collected raw).reverse ++ inner⟩ := by
  induction raw generalizing inner with
  | nil => rfl
  | cons c raw ih =>
    rw [List.flatMap_cons, readFrom_append, readFrom_textUnit, Option.bind_some, ih]
    simp [collected]

theorem readFrom_escapeAttribute (raw : List Char) (start : Start) (name : String)
    (seen : List Char) (opened : List Frame) (inner : List Tree) :
    readFrom ⟨.value start name seen none, opened, inner⟩ (raw.flatMap attributeUnit) =
      some ⟨.value start name (seen ++ raw) none, opened, inner⟩ := by
  induction raw generalizing seen with
  | nil => simp
  | cons c raw ih =>
    rw [List.flatMap_cons, readFrom_append, readFrom_attributeUnit, Option.bind_some, ih]
    simp

/-! ## Tags -/

theorem readFrom_plain {chars : List Char} (plain : ∀ c ∈ chars, isSign c = false)
    (naming : Naming) (seen : List Char) (opened : List Frame) (inner : List Tree) :
    readFrom ⟨.name naming seen, opened, inner⟩ chars =
      some ⟨.name naming (seen ++ chars), opened, inner⟩ := by
  induction chars generalizing seen with
  | nil => simp
  | cons c chars ih =>
    have part : isSign c = false := plain c (by simp)
    have step : next? ⟨.name naming seen, opened, inner⟩ c =
        some ⟨.name naming (seen ++ [c]), opened, inner⟩ := by
      simp only [next?, part]
      rfl
    rw [readFrom_cons, step, Option.bind_some, ih fun other member => plain other (by simp [member])]
    simp

theorem readFrom_name {name : String} (plain : IsPlainName name) {sign : Char}
    (ends : isSign sign = true) (naming : Naming) (opened : List Frame) (inner : List Tree) :
    readFrom ⟨.name naming [], opened, inner⟩ (name.toList ++ [sign]) =
      named? ⟨.name naming name.toList, opened, inner⟩ name naming sign := by
  have present : name.toList ≠ [] := by simpa using plain.1
  rw [readFrom_append, readFrom_plain plain.2, Option.bind_some, readFrom_cons]
  simp [next?, ends, present]

theorem readFrom_attribute {item : String × String} (plain : IsPlainName item.1) (start : Start)
    (opened : List Frame) (inner : List Tree) :
    readFrom ⟨.afterValue start, opened, inner⟩ (spellAttribute item).toList =
      some ⟨.afterValue ⟨start.tag, start.attributes ++ [item]⟩, opened, inner⟩ := by
  obtain ⟨name, value⟩ := item
  have space : next? ⟨.afterValue start, opened, inner⟩ ' ' =
      some ⟨.name (.attribute start) [], opened, inner⟩ := rfl
  have equals : named? ⟨.name (.attribute start) name.toList, opened, inner⟩ name
      (.attribute start) '=' = some ⟨.quote start name, opened, inner⟩ := rfl
  have opening : next? ⟨.quote start name, opened, inner⟩ '"' =
      some ⟨.value start name [] none, opened, inner⟩ := rfl
  have closing : next? ⟨.value start name value.toList none, opened, inner⟩ '"' =
      some ⟨.afterValue ⟨start.tag, start.attributes ++ [(name, value)]⟩, opened, inner⟩ := by
    simp [next?, moveTo]
  rw [toList_spellAttribute, readFrom_cons, space, Option.bind_some, List.append_cons,
    readFrom_append, readFrom_name plain rfl, equals, Option.bind_some, readFrom_cons, opening,
    Option.bind_some, readFrom_append, readFrom_escapeAttribute, List.nil_append,
    Option.bind_some, readFrom_cons, closing]
  simp

theorem readFrom_attributes {items : List (String × String)}
    (plain : ∀ item ∈ items, IsPlainName item.1) (start : Start) (opened : List Frame)
    (inner : List Tree) :
    readFrom ⟨.afterValue start, opened, inner⟩ (spellAttributes items).toList =
      some ⟨.afterValue ⟨start.tag, start.attributes ++ items⟩, opened, inner⟩ := by
  induction items generalizing start with
  | nil => simp [spellAttributes]
  | cons item items ih =>
    rw [spellAttributes, String.toList_append, readFrom_append,
      readFrom_attribute (plain item (by simp)), Option.bind_some,
      ih fun other member => plain other (by simp [member])]
    simp

/-- After its name a start tag goes on as after an attribute. -/
theorem readFrom_startName {tag : String} (plain : IsPlainName tag) {chars : List Char}
    (goesOn : chars.head? = some ' ' ∨ chars.head? = some '>') (opened : List Frame)
    (inner : List Tree) :
    readFrom ⟨.name .startTag [], opened, inner⟩ (tag.toList ++ chars) =
      readFrom ⟨.afterValue ⟨tag, []⟩, opened, inner⟩ chars := by
  cases chars with
  | nil => simp at goesOn
  | cons sign chars =>
    simp only [List.head?_cons, Option.some.injEq] at goesOn
    rw [List.append_cons, readFrom_append]
    rcases goesOn with rfl | rfl
    · rw [readFrom_name plain rfl]
      rfl
    · rw [readFrom_name plain rfl]
      rfl

theorem readFrom_less {tag : String} (plain : IsPlainName tag) (chars : List Char)
    (opened : List Frame) (inner : List Tree) :
    readFrom ⟨.content none, opened, inner⟩ ('<' :: (tag.toList ++ chars)) =
      readFrom ⟨.name .startTag [], opened, inner⟩ (tag.toList ++ chars) := by
  have less : next? ⟨.content none, opened, inner⟩ '<' = some ⟨.tag, opened, inner⟩ := rfl
  rw [readFrom_cons, less, Option.bind_some]
  cases spelled : tag.toList with
  | nil => exact absurd (String.toList_eq_nil_iff.mp spelled) plain.1
  | cons first rest =>
    -- a name does not start with the slash of an end tag
    have part : isSign first = false := plain.2 first (by simp [spelled])
    have slash : first ≠ '/' := fun same => by simp [same, isSign, signs] at part
    simp [readFrom_cons, next?, part, slash, moveTo]

theorem spellAttributes_head (items : List (String × String)) :
    ((spellAttributes items).toList ++ ['>']).head? = some ' ' ∨
      ((spellAttributes items).toList ++ ['>']).head? = some '>' := by
  cases items with
  | nil => simp [spellAttributes]
  | cons item items => simp [spellAttributes, spellAttribute, String.toList_append]

theorem readFrom_startTag {tag : String} (plainTag : IsPlainName tag)
    {attributes : List (String × String)} (plain : ∀ item ∈ attributes, IsPlainName item.1)
    (opened : List Frame) (inner : List Tree) :
    readFrom ⟨.content none, opened, inner⟩ (startTag tag attributes).toList =
      some ⟨.content none, ⟨⟨tag, attributes⟩, inner⟩ :: opened, []⟩ := by
  rw [toList_startTag, readFrom_less plainTag,
    readFrom_startName plainTag (spellAttributes_head attributes), readFrom_append,
    readFrom_attributes plain]
  rfl

theorem readFrom_endTag {tag : String} (plain : IsPlainName tag)
    (attributes : List (String × String)) (before inner : List Tree) (opened : List Frame) :
    readFrom ⟨.content none, ⟨⟨tag, attributes⟩, before⟩ :: opened, inner⟩ (endTag tag).toList =
      some ⟨.content none, opened,
        .element tag attributes (joinTexts inner.reverse) :: before⟩ := by
  have less (reader : Reader) (content : reader.place = .content none) :
      next? reader '<' = some (reader.moveTo .tag) := by simp [next?, content]
  rw [toList_endTag, readFrom_cons, less _ rfl, Option.bind_some, readFrom_cons]
  show readFrom ⟨.name .endTag [], _, inner⟩ _ = _
  rw [readFrom_name plain rfl]
  simp [named?, leave?, moveTo]

end Reader

/-! ## Trees that are read back -/

mutual
/-- Every tag and attribute name in the tree is one for the reader. -/
def Tree.Plain : Tree → Prop
  | .element tag attributes children =>
    IsPlainName tag ∧ (∀ item ∈ attributes, IsPlainName item.1) ∧ AllPlain children
  | .text _ => True

/-- Every tag and attribute name in the trees is one for the reader. -/
def AllPlain : List Tree → Prop
  | [] => True
  | tree :: trees => tree.Plain ∧ AllPlain trees
end

/-! ### Start tags -/

mutual
/-- The start tags of a tree, in the order in which they are written. -/
def Tree.starts : Tree → List Start
  | .element tag attributes children => ⟨tag, attributes⟩ :: startsAll children
  | .text _ => []

/-- The start tags of trees, in the order in which they are written. -/
def startsAll : List Tree → List Start
  | [] => []
  | tree :: trees => tree.starts ++ startsAll trees
end

theorem startsAll_append (left right : List Tree) :
    startsAll (left ++ right) = startsAll left ++ startsAll right := by
  induction left with
  | nil => rfl
  | cons tree trees ih => simp [startsAll, ih]

/-- The names of a start tag are names of their kind. -/
structure Start.Named (start : Start) : Prop where
  tag : checkTag start.tag = .ok ()
  attributes : ∀ item ∈ start.attributes, checkAttribute item.1 = .ok ()

/-- The names of every start tag in the trees are names of their kind. -/
def AllNamed (forest : List Tree) : Prop := ∀ start ∈ startsAll forest, start.Named

theorem allNamed_append {left right : List Tree} :
    AllNamed (left ++ right) ↔ AllNamed left ∧ AllNamed right := by
  simp only [AllNamed, startsAll_append, List.forall_mem_append]

theorem allNamed_element {tag : String} {attributes : List (String × String)}
    {children : List Tree} :
    AllNamed [.element tag attributes children] ↔
      Start.Named ⟨tag, attributes⟩ ∧ AllNamed children := by
  simp [AllNamed, startsAll, Tree.starts]

theorem Start.Named.plain {start : Start} (named : start.Named) :
    IsPlainName start.tag ∧ ∀ item ∈ start.attributes, IsPlainName item.1 :=
  ⟨isPlainName_of_checkTag named.tag, fun item member =>
    isPlainName_of_checkName (named.attributes item member)⟩

mutual
theorem plain_of_named {tree : Tree} (named : ∀ start ∈ tree.starts, start.Named) : tree.Plain := by
  cases tree with
  | element tag attributes children =>
    obtain ⟨first, inner⟩ := List.forall_mem_cons.mp named
    exact ⟨first.plain.1, first.plain.2, allPlain_of_allNamed inner⟩
  | text raw => trivial

theorem allPlain_of_allNamed {forest : List Tree} (named : AllNamed forest) : AllPlain forest := by
  cases forest with
  | nil => trivial
  | cons tree trees =>
    obtain ⟨first, others⟩ := List.forall_mem_append.mp named
    exact ⟨plain_of_named first, allPlain_of_allNamed others⟩
end

namespace Reader

/-- A tree as the reader collects it: merged inside, and a text for each character outside. -/
def units : Tree → List Tree
  | .element tag attributes children =>
    [.element tag attributes (joinTexts (mergedAll children))]
  | .text raw => collected raw.toList

theorem joinTexts_collected (raw : List Char) (trees : List Tree) :
    joinTexts (collected raw ++ trees) = joinText (String.ofList raw) (joinTexts trees) := by
  induction raw with
  | nil => simp [collected, joinText_empty]
  | cons c raw ih =>
    have spelled : c.toString ++ String.ofList raw = String.ofList (c :: raw) := by
      simp
    have step : joinTexts (collected (c :: raw) ++ trees) =
        joinText c.toString (joinTexts (collected raw ++ trees)) := rfl
    rw [step, ih, joinText_joinText, spelled]

theorem joinTexts_units (forest : List Tree) :
    joinTexts (forest.flatMap units) = merge forest := by
  induction forest with
  | nil => rfl
  | cons tree trees ih =>
    rw [merge] at ih
    cases tree with
    | element tag attributes children => simp [units, joinTexts, merge, mergedAll, Tree.merged, ih]
    | text raw =>
      simp [units, joinTexts_collected, ih, joinTexts, merge, mergedAll, Tree.merged]

mutual
theorem readFrom_spell {tree : Tree} (plain : tree.Plain) (opened : List Frame)
    (inner : List Tree) :
    readFrom ⟨.content none, opened, inner⟩ tree.spell.toList =
      some ⟨.content none, opened, (units tree).reverse ++ inner⟩ := by
  cases tree with
  | element tag attributes children =>
    obtain ⟨plainTag, plainAttributes, plainChildren⟩ := plain
    rw [Tree.spell, String.toList_append, String.toList_append, readFrom_append, readFrom_append,
      readFrom_startTag plainTag plainAttributes, Option.bind_some,
      readFrom_spellAll plainChildren, Option.bind_some, readFrom_endTag plainTag]
    simp [units, joinTexts_units, merge]
  | text raw =>
    rw [Tree.spell, escapeText, String.toList_ofList, readFrom_escapeText]
    rfl

theorem readFrom_spellAll {forest : List Tree} (plain : AllPlain forest) (opened : List Frame)
    (inner : List Tree) :
    readFrom ⟨.content none, opened, inner⟩ (spellAll forest).toList =
      some ⟨.content none, opened, (forest.flatMap units).reverse ++ inner⟩ := by
  cases forest with
  | nil => simp [spellAll]
  | cons tree trees =>
    obtain ⟨first, others⟩ := plain
    rw [spellAll, String.toList_append, readFrom_append, readFrom_spell first, Option.bind_some,
      readFrom_spellAll others]
    simp
end

end Reader

/-- The spelling of trees is read as these trees. -/
theorem readFragment_spellAll {forest : List Tree} (plain : AllPlain forest) :
    readFragment (spellAll forest) = some (merge forest) := by
  rw [readFragment, Reader.readFrom_spellAll plain]
  simp [Reader.finish?, Reader.joinTexts_units]

example : readFragment "<a b=\"1\">&lt;<c></c></a>" =
    some [.element "a" [("b", "1")] [.text "<", .element "c" [] []]] := by rfl
example : readFragment "<a><b></a></b>" = none := by rfl

end XmlTemplate.Xml
