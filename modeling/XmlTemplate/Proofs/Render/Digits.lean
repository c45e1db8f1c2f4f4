import Mathlib.Algebra.Group.Nat.Defs
import XmlTemplate.Proofs.Format.Canonical
import XmlTemplate.Proofs.Render.Unfolding

/-!
# Runs of digits

A run of digits stands for a natural number, however long it is and however many zeros it starts
with. As the count of an element it is refused if the number does not fit into a machine word. As an
index it is kept as it is written, and when it is resolved a number that fits into no machine word
is beyond the end of every sequence. In neither place is the number reduced to fit.

Results:
1. `natural?_of_isDigits`: a run of digits is read as its number, or as none if this is too large.
2. `compile_counted`, `not_compile_counted`: the counts that a format may have.
3. `inTurn_counted`, `render_counted`: an element with a count is emitted for the numbers below it.
4. `resolve_index`: the item at an index.
5. `digits_exact`: digits as a count and as an index.
-/

namespace XmlTemplate

open Format (Token isDigits)

/-! ## Numbers -/

namespace Decimal

theorem isDigits_zeros {digits : String} (run : isDigits digits = true) (zeros : Nat) :
    isDigits (String.ofList (List.replicate zeros '0') ++ digits) = true := by
  simp only [isDigits, Bool.and_eq_true, List.all_eq_true, Bool.not_eq_true',
    String.toList_append, String.toList_ofList] at run ⊢
  refine ⟨?_, fun c member => ?_⟩
  · simp_all
  · exact (List.mem_append.mp member).elim isDigit_of_mem_zeros (run.2 c)

theorem natural?_of_isDigits {text : String} (run : isDigits text = true) (bound : Nat) :
    natural? bound text =
      if ofDigits text.toList < bound then some (ofDigits text.toList) else none := by
  have read : digits? text.toList = some (ofDigits text.toList) :=
    Format.digits?_eq_some_iff.mpr ⟨run, rfl⟩
  rw [isDigits, Bool.and_eq_true, List.all_eq_true] at run
  unfold natural?
  split
  · rename_i rest spelled
    -- a sign is no digit
    have digit := run.2 '+' (by simp [spelled])
    cases digit
  · rw [read, Option.filter_some]
    simp

end Decimal

/-! ## Counts in formats -/

namespace Template

open Format Format.Grammar

/-- An element that is emitted for each number below a count. -/
def counted (count : Nat) (children : List Node) : Template :=
  ⟨[.element ⟨.literal "a", some (.times count), []⟩ children]⟩

/-- The tokens of an element with a count, and with a content or without one. -/
def countedTokens (digits : String) (content : List Token) : List Token :=
  [.less, .bare "a", .star, .bare digits] ++ content ++ [.greater]

theorem spellable_countedTokens {digits : String} (run : isDigits digits = true)
    {content : List Token} (signs : ∀ token ∈ content ++ [.greater], ∀ word, token ≠ .bare word) :
    Spellable (countedTokens digits content) := by
  have rest := Apart.of_forall_ne_bare signs
  have word : Spellable (.bare digits :: (content ++ [.greater])) :=
    ⟨isBareWord_of_isDigits run, rest.starts, rest.spellable⟩
  exact ⟨by decide, by simp, word⟩

variable {digits : String}

/-- The element is compiled if its phrase is one of the grammar and its children are flat. -/
theorem compile_countedTokens (run : isDigits digits = true) {content : List Token}
    (signs : ∀ token ∈ content ++ [.greater], ∀ word, token ≠ .bare word) {count : Nat}
    {children : List Node} (flat : Node.depthAll children = 0)
    (nested : Nested true (countedTokens digits content)
      (.element ⟨.literal "a", some (.times count), []⟩ children) []) :
    compile (String.ofList ((countedTokens digits content).flatMap Token.spelled)) =
      .ok (counted count children) := by
  have phrases : Document true (countedTokens digits content) (counted count children).nodes :=
    .cons (.nested nested) (.nil [])
  have shallow : Node.depthAll (counted count children).nodes ≤ maxDepth := by
    simp [counted, Node.depthAll, flat, maxDepth]
  exact compile_spelled (spellable_countedTokens run signs) phrases shallow

theorem compile_counted (run : isDigits digits = true)
    (small : Decimal.ofDigits digits.toList < Decimal.wordBound) :
    compile ("<a*" ++ digits ++ ">") = .ok (counted (Decimal.ofDigits digits.toList) []) ∧
      compile ("<a*" ++ digits ++ "&?>") =
        .ok (counted (Decimal.ofDigits digits.toList) [.value .current]) := by
  have tag (rest : List Token) :
      Tag true ([.bare "a", .star, .bare digits] ++ rest)
        (.literal "a", some (.times (Decimal.ofDigits digits.toList))) rest :=
    .repeated (.bare "a" _) (.count rest run small)
  constructor
  · have spelled : "<a*" ++ digits ++ ">" =
        String.ofList ((countedTokens digits []).flatMap Token.spelled) := by
      apply String.toList_injective
      simp [countedTokens, Token.spelled]
    rw [spelled]
    exact compile_countedTokens run (by simp) rfl (.children (tag [.greater]) (.nil _) (.nil _))
  · have spelled : "<a*" ++ digits ++ "&?>" =
        String.ofList ((countedTokens digits [.ampersand, .question]).flatMap Token.spelled) := by
      apply String.toList_injective
      simp [countedTokens, Token.spelled]
    have current : Content true [.question, .greater] (.value .current) [.greater] :=
      .source (.question (.nil fun _ => not_segment_of_not_dot (by simp)))
    rw [spelled]
    exact compile_countedTokens run (by simp) rfl
      (.content (tag [.ampersand, .question, .greater]) (.nil _) current)

/-- A count that fits into no machine word is a fault of the format, whatever follows it. -/
theorem readNodes_counted (run : isDigits digits = true)
    (large : Decimal.wordBound ≤ Decimal.ofDigits digits.toList) {stream : Tokens}
    {more : List Token} (shape : stream.sequence = [.less, .bare "a", .star, .bare digits] ++ more) :
    ∃ fault, readNodes stream = .error fault := by
  obtain ⟨first, _, rfl, afterLess⟩ := sequence_eq_cons shape
  obtain ⟨second, _, rfl, afterName⟩ := sequence_eq_cons afterLess
  obtain ⟨third, _, rfl, afterStar⟩ := sequence_eq_cons afterName
  obtain ⟨fourth, rest, rfl, -⟩ := sequence_eq_cons afterStar
  have read : Decimal.digits? digits.toList = some (Decimal.ofDigits digits.toList) :=
    digits?_eq_some_iff.mpr ⟨run, rfl⟩
  have refused : ¬ Decimal.ofDigits digits.toList < Decimal.wordBound := Nat.not_lt.mpr large
  have count : readRepetition (.next (.bare digits) fourth rest) =
      .error ((Tokens.next (.bare digits) fourth rest).fault .boundedCount) := by
    simp only [readRepetition, read, refused, if_false]
  have element (levels : Nat) : readElement (readNested levels)
      (.next (.bare "a") second (.next .star third (.next (.bare digits) fourth rest))) =
        .error ((Tokens.next (.bare digits) fourth rest).fault .boundedCount) := by
    rw [readElement, readTag]
    · simp only [readExpr, bind, Except.bind, count]
    · simp
  refine ⟨(Tokens.next (.bare digits) fourth rest).fault .boundedCount, ?_⟩
  rw [readNodes, readMany, readWithin]
  show (readElement (readNested 127) _ >>= _) = _
  rw [element]
  rfl

theorem not_compile_counted (run : isDigits digits = true)
    (large : Decimal.wordBound ≤ Decimal.ofDigits digits.toList) :
    ¬ ∃ template, compile ("<a*" ++ digits ++ ">") = .ok template := by
  rintro ⟨template, compiled⟩
  obtain ⟨stream, rest, scanned, read⟩ := compile_eq_ok_iff.mp compiled
  obtain ⟨other, again, shape⟩ :=
    scan_spelled (@spellable_countedTokens digits run [] (by simp)) 0
  have spelled : ("<a*" ++ digits ++ ">").toList =
      (countedTokens digits []).flatMap Token.spelled := by
    simp [countedTokens, Token.spelled]
  rw [Format.tokens, spelled, again] at scanned
  cases scanned
  obtain ⟨fault, refused⟩ := readNodes_counted run large shape
  rw [refused] at read
  cases read

/-- The format of one value that is reached by an index. -/
theorem compile_index (run : isDigits digits = true) :
    compile ("&." ++ digits) = .ok ⟨[.value (.chain .current [.index digits])]⟩ := by
  let sequence : List Token := [.ampersand, .dot, .bare digits]
  have spelled : "&." ++ digits = String.ofList (sequence.flatMap Token.spelled) := by
    apply String.toList_injective
    simp [sequence, Token.spelled]
  have spellable : Spellable sequence := ⟨isBareWord_of_isDigits run, by simp, trivial⟩
  have index : Source true [.dot, .bare digits] (.chain .current [.index digits]) [] :=
    .segments (.index [] run) (.nil fun _ => not_segment_of_not_dot (by simp))
  have phrases : Document true sequence [.value (.chain .current [.index digits])] :=
    .cons (.content (.source index)) (.nil [])
  rw [spelled]
  exact compile_spelled spellable phrases (Nat.zero_le _)

end Template

/-! ## Counts in rendering -/

namespace Render

open Xml (Tree spellAll)

/-- The element that a count repeats. -/
def countedHead : Head := ⟨.literal "a", none, []⟩

/-- An element with a count is emitted for each number below it, one after another. -/
theorem inTurn_counted (count : Nat) (children : List Node) (root : Object) (sink : Sink) :
    InTurn ((List.range count).map fun n => renderOnce countedHead children (.ofNat n)) sink
      ((Template.counted count children).renderTo root sink) := by
  have unfolds : Unfolds countedHead children root (.times count) _ := .times count
  have turns := inTurn_forM unfolds.isRound sink
  rw [← unfolds.render_eq] at turns
  have single : renderAll (Template.counted count children).nodes root =
      render (.element (countedHead.repeated (.times count)) children) root :=
    bind_pure_unit
  rwa [Template.renderTo, single]

theorem gather_map {α : Type} {trees : Object → Object → Except RenderError (List Tree)}
    {round : α → Object × Object} {tree : α → Tree}
    (each : ∀ x, trees (round x).1 (round x).2 = .ok [tree x]) (items : List α) :
    Rounds.gather trees (items.map round) = .ok (items.map tree) := by
  induction items with
  | nil => rfl
  | cons x items ih =>
    rw [List.map_cons, Rounds.gather, each, ih]
    rfl

/-- The elements for the numbers below a count, if the children stand for trees for every number. -/
theorem render_counted {children : List Node} {inner : Nat → List Tree}
    (grown : ∀ n, treesAll children (.ofNat n) = .ok (inner n)) (count : Nat) (root : Object) :
    (Template.counted count children).render root =
      .ok (spellAll ((List.range count).map fun n => .element "a" [] (inner n))) := by
  let trees (front object : Object) := elementOf countedHead front (treesAll children object)
  have element (n : Nat) : trees (.ofNat n) (.ofNat n) = .ok [.element "a" [] (inner n)] := by
    show elementOf countedHead (.ofNat n) (treesAll children (.ofNat n)) = _
    rw [grown]
    rfl
  have rounds : Rounds.numbers count 0 =
      .all ((List.range count).map fun n => (.ofNat n, .ofNat n)) := by
    simp [Rounds.numbers, Rounds.each, List.range_eq_range', Function.comp_def]
  have whole : treesAll (Template.counted count children).nodes root =
      (do
        let first ← (Rounds.numbers count 0).forest trees
        return first ++ [] : Except RenderError (List Tree)) := rfl
  have gathered : Rounds.gather trees ((List.range count).map fun n => (.ofNat n, .ofNat n)) = _ :=
    gather_map element (List.range count)
  rw [render_eq_spellAll, forest, whole, rounds, Rounds.forest, Rounds.all, gathered]
  simp [bind, Except.bind, pure, Except.pure, Except.map]

/-! ## Indices -/

/-- The item at an index of a sequence that has no other kind of access. -/
theorem resolve_index {digits : String} (run : isDigits digits = true) {object : Object}
    (ordered : object.capabilities = .ordered) (agree : ∀ i, object.item? i = object.items[i]?)
    (small : object.items.length < Decimal.wordBound) :
    resolve (.chain .current [.index digits]) object =
      match object.items[Decimal.ofDigits digits.toList]? with
      | some item => .ok item
      | none => .error ⟨"?", digits, .outOfRange⟩ := by
  have read := Decimal.natural?_of_isDigits run Decimal.wordBound
  have entry : answer? object digits = none := by simp [answer?, ordered, Capabilities.ordered]
  have item : itemAt? object digits = object.items[Decimal.ofDigits digits.toList]? := by
    rw [itemAt?, read]
    split
    · exact agree _
    · rename_i large
      exact (List.getElem?_eq_none (by omega)).symm
  have sequence : object.capabilities.sequence = true := by rw [ordered]; rfl
  rw [resolve, resolve]
  show walk "?" [.index digits] object = _
  simp only [walk, step, entry, sequence, item, if_true]
  cases object.items[Decimal.ofDigits digits.toList]? <;> rfl

/-! ## Both -/

open Template (compile counted)

/-- A run of digits is its number, with any zeros in front of it. A format may have it as a count if
and only if the number fits into a machine word. The element is then emitted for the numbers below
it, each of which it can show, and a sink that takes them all gets one element for each. As an index
it gives the item at this number of a sequence, or is out of range. -/
theorem digits_exact {digits : String} (run : isDigits digits = true) (zeros : Nat) :
    let number := Decimal.ofDigits digits.toList
    let padded := String.ofList (List.replicate zeros '0') ++ digits
    ((∃ template, compile ("<a*" ++ padded ++ ">") = .ok template) ↔ number < 2 ^ 64) ∧
    (number < 2 ^ 64 →
      compile ("<a*" ++ padded ++ ">") = .ok (counted number []) ∧
      compile ("<a*" ++ padded ++ "&?>") = .ok (counted number [.value .current])) ∧
    (∀ children root sink,
      InTurn ((List.range number).map fun n => renderOnce countedHead children (.ofNat n)) sink
        ((counted number children).renderTo root sink)) ∧
    (∀ root, (counted number []).render root =
      .ok (spellAll (List.replicate number (.element "a" [] [])))) ∧
    (∀ root, (counted number [.value .current]).render root =
      .ok (spellAll ((List.range number).map fun n => .element "a" [] [.text (toString n)]))) ∧
    compile ("&." ++ padded) = .ok ⟨[.value (.chain .current [.index padded])]⟩ ∧
    ∀ object : Object, object.capabilities = .ordered → object.items.length < 2 ^ 64 →
      (∀ i, object.item? i = object.items[i]?) →
      resolve (.chain .current [.index padded]) object =
        match object.items[number]? with
        | some item => .ok item
        | none => .error ⟨"?", padded, .outOfRange⟩ := by
  intro number padded
  have paddedRun : isDigits padded = true := Decimal.isDigits_zeros run zeros
  have same : Decimal.ofDigits padded.toList = number := by
    rw [String.toList_append, String.toList_ofList, Decimal.ofDigits_zeros_append]
  refine ⟨⟨fun compiled => ?_, fun small => ?_⟩, fun small => ?_, inTurn_counted number,
    fun root => ?_, fun root => ?_, Template.compile_index paddedRun, ?_⟩
  · refine Nat.lt_of_not_le fun large => ?_
    exact Template.not_compile_counted paddedRun (same.symm ▸ large) compiled
  · exact ⟨_, (Template.compile_counted paddedRun (same.symm ▸ small)).1⟩
  · have compiled := Template.compile_counted paddedRun (same.symm ▸ small)
    rwa [same] at compiled
  · have empty (n : Nat) : treesAll [] (.ofNat n) = .ok [] := rfl
    rw [render_counted empty, List.map_const', List.length_range]
  · have shown (n : Nat) : treesAll [.value .current] (.ofNat n) = .ok [.text (toString n)] := rfl
    exact render_counted shown number root
  · intro object ordered small agree
    rw [resolve_index paddedRun ordered agree small, same]

/-- Seven, and the number that seven would be taken for if numbers were reduced to a machine word,
as a count and as an index of eight items. -/
theorem digits_exact_reduced :
    let object := Object.sequence ((List.range 8).map .ofNat) ""
    let reduced := "18446744073709551623"
    isDigits "7" = true ∧ compile "<a*007>" = .ok (counted 7 []) ∧
      resolve (.chain .current [.index "007"]) object = .ok (.ofNat 7) ∧
      isDigits reduced = true ∧ (¬ ∃ template, compile ("<a*" ++ reduced ++ ">") = .ok template) ∧
      resolve (.chain .current [.index reduced]) object = .error ⟨"?", reduced, .outOfRange⟩ := by
  intro object reduced
  have seven : isDigits "7" = true := by decide
  have run : isDigits reduced = true := by decide
  have items : object.items.length < 2 ^ 64 := by decide
  obtain ⟨-, counts, -, -, -, -, index⟩ := digits_exact seven 2
  have unpadded : String.ofList (List.replicate 0 '0') ++ reduced = reduced := by decide
  have outside : object.items[Decimal.ofDigits reduced.toList]? = none :=
    List.getElem?_eq_none (by decide)
  obtain ⟨accepted, -, -, -, -, -, beyond⟩ := digits_exact run 0
  rw [unpadded] at accepted beyond
  refine ⟨seven, (counts (by decide)).1, index object rfl items fun _ => rfl, run,
    mt accepted.mp (by decide), ?_⟩
  rw [beyond object rfl items fun _ => rfl, outside]

end Render

end XmlTemplate
