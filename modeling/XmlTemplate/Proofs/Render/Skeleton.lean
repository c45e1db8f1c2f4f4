import Mathlib.Data.List.Forall2
import XmlTemplate.Proofs.Render.Forest

/-!
# Data cannot change the structure

The skeleton of a text has its elements with their tags, attribute names and nesting, and nothing of
attribute values and character data. Two objects are of the same shape if they differ in texts only,
at whatever depth. Where a template names everything by literals, it treats objects of the same shape
alike: it fails for both with the same error, or gives two texts with the same skeleton.

Results:
1. `skeleton?_spellAll`: the skeleton of a text is that of the trees it spells.
2. `alike_resolve`, `alike_rounds`: expressions and repetitions keep objects of the same shape in step.
3. `alike_treesAll`: nodes stand for trees with the same skeleton.
4. `alike_render`: the same for the texts of a template.
-/

namespace XmlTemplate

/-! ## Skeletons -/

namespace Xml

/-- An element without its data: its tag, the names of its attributes and the elements inside it. -/
inductive Skeleton where
  | element (tag : String) (names : List String) (children : List Skeleton)
  deriving Repr

mutual
/-- The skeleton of a tree, which a text has none of. -/
def Tree.skeleton : Tree → List Skeleton
  | .element tag attributes children =>
    [.element tag (attributes.map Prod.fst) (skeletonAll children)]
  | .text _ => []

/-- The skeletons of the elements among trees, in order. -/
def skeletonAll : List Tree → List Skeleton
  | [] => []
  | tree :: trees => tree.skeleton ++ skeletonAll trees
end

/-- The skeleton of a text that is a fragment. -/
def skeleton? (text : String) : Option (List Skeleton) := (readFragment text).map skeletonAll

theorem skeletonAll_append (left right : List Tree) :
    skeletonAll (left ++ right) = skeletonAll left ++ skeletonAll right := by
  induction left with
  | nil => rfl
  | cons tree trees ih => simp [skeletonAll, ih]

theorem skeletonAll_joinText (raw : String) (trees : List Tree) :
    skeletonAll (joinText raw trees) = skeletonAll trees := by
  unfold joinText
  split
  · rfl
  · split <;> rfl

theorem skeletonAll_joinTexts (trees : List Tree) :
    skeletonAll (joinTexts trees) = skeletonAll trees := by
  induction trees with
  | nil => rfl
  | cons tree trees ih =>
    cases tree with
    | element tag attributes children => rw [joinTexts, skeletonAll, skeletonAll, ih]; simp
    | text raw => exact (skeletonAll_joinText raw _).trans ih

mutual
theorem skeleton_merged (tree : Tree) : tree.merged.skeleton = tree.skeleton := by
  cases tree with
  | element tag attributes children =>
    rw [Tree.merged, Tree.skeleton, Tree.skeleton, skeletonAll_joinTexts,
      skeletonAll_mergedAll children]
  | text raw => rfl

theorem skeletonAll_mergedAll (trees : List Tree) :
    skeletonAll (mergedAll trees) = skeletonAll trees := by
  cases trees with
  | nil => rfl
  | cons tree trees =>
    rw [mergedAll, skeletonAll, skeletonAll, skeleton_merged tree, skeletonAll_mergedAll trees]
end

/-- Escaped data adds nothing to the skeleton of a text, and takes nothing from it. -/
theorem skeleton?_spellAll {forest : List Tree} (plain : AllPlain forest) :
    skeleton? (spellAll forest) = some (skeletonAll forest) := by
  rw [skeleton?, readFragment_spellAll plain, Option.map_some, merge, skeletonAll_joinTexts,
    skeletonAll_mergedAll]

end Xml

/-! ## Literal names -/

/-- The expression is a text of the template itself. -/
def Expr.IsLiteral (expr : Expr) : Prop := ∃ text, expr = .literal text

/-- The tag and the attribute names of an element are literals. -/
structure Head.LiteralNames (head : Head) : Prop where
  tag : head.name.IsLiteral
  attributes : ∀ item ∈ head.attributes, item.name.IsLiteral

namespace Node

mutual
/-- Every tag and every attribute name in a node is a literal. -/
def LiteralNames : Node → Prop
  | .element head children => head.LiteralNames ∧ AllLiteralNames children
  | .text _ => True
  | .value _ => True
  | .scope _ children => AllLiteralNames children

/-- Every tag and every attribute name in nodes is a literal. -/
def AllLiteralNames : List Node → Prop
  | [] => True
  | node :: nodes => node.LiteralNames ∧ AllLiteralNames nodes
end

end Node

/-- Every tag and every attribute name in a template is a literal. -/
def Template.LiteralNames (template : Template) : Prop := Node.AllLiteralNames template.nodes

/-! ## Objects of the same shape -/

namespace Object

/-- Two objects have the same capabilities and counts, and answers at the same places that are of the
same shape again. Their texts may be anything. -/
inductive SameShape : Object → Object → Prop
  | intro {left right : Object} (capabilities : left.capabilities = right.capabilities)
      (attributes : ∀ name, Option.Rel SameShape (left.attribute? name) (right.attribute? name))
      (keys : ∀ name, Option.Rel SameShape (left.key? name) (right.key? name))
      (positions : ∀ i, Option.Rel SameShape (left.item? i) (right.item? i))
      (items : List.Forall₂ SameShape left.items right.items)
      (firsts : List.Forall₂ SameShape (left.pairs.map Prod.fst) (right.pairs.map Prod.fst))
      (seconds : List.Forall₂ SameShape (left.pairs.map Prod.snd) (right.pairs.map Prod.snd))
      (counts : left.count? = right.count?) : SameShape left right

theorem sameShape_counting (count? : Option Nat) (text other : String) :
    SameShape (counting count? text) (counting count? other) :=
  .intro rfl (fun _ => .none) (fun _ => .none) (fun _ => .none) .nil .nil .nil rfl

theorem sameShape_plain (text other : String) : SameShape (plain text) (plain other) :=
  sameShape_counting none text other

theorem rel_getElem? {items others : List Object} (alike : List.Forall₂ SameShape items others)
    (i : Nat) : Option.Rel SameShape items[i]? others[i]? := by
  induction alike generalizing i with
  | nil => exact .none
  | cons first rest ih =>
    cases i with
    | zero => exact .some first
    | succ i => simpa using ih i

theorem sameShape_sequence {items others : List Object}
    (alike : List.Forall₂ SameShape items others) (text other : String) :
    SameShape (sequence items text) (sequence others other) :=
  .intro rfl (fun _ => .none) (fun _ => .none) (rel_getElem? alike) alike .nil .nil rfl

theorem sameShape_pair {key value otherKey otherValue : Object} (keys : SameShape key otherKey)
    (values : SameShape value otherValue) :
    SameShape (pair key value) (pair otherKey otherValue) :=
  sameShape_sequence (.cons keys (.cons values .nil)) _ _

/-- Two pairs of objects, the first and the second ones of the same shape. -/
def PairShape (entry other : Object × Object) : Prop :=
  SameShape entry.1 other.1 ∧ SameShape entry.2 other.2

theorem pairShape_of_components {entries others : List (Object × Object)}
    (firsts : List.Forall₂ SameShape (entries.map Prod.fst) (others.map Prod.fst))
    (seconds : List.Forall₂ SameShape (entries.map Prod.snd) (others.map Prod.snd)) :
    List.Forall₂ PairShape entries others := by
  induction entries generalizing others with
  | nil =>
    cases others with
    | nil => exact .nil
    | cons other others => cases firsts
  | cons entry entries ih =>
    cases others with
    | nil => cases firsts
    | cons other others =>
      rcases firsts with _ | ⟨first, firsts⟩
      rcases seconds with _ | ⟨second, seconds⟩
      exact .cons ⟨first, second⟩ (ih firsts seconds)

end Object

namespace Render

open Object (SameShape PairShape)
open Xml (Tree skeletonAll)

/-! ## Results in step -/

/-- Both succeed with related results, or both fail with the same error. -/
def Alike {ε α β : Type} (related : α → β → Prop) (first : Except ε α) (other : Except ε β) : Prop :=
  (∃ x y, first = .ok x ∧ other = .ok y ∧ related x y) ∨
    ∃ error, first = .error error ∧ other = .error error

section
variable {ε α β γ δ : Type} {related : α → β → Prop} {after : γ → δ → Prop}

theorem Alike.ok {x : α} {y : β} (same : related x y) :
    Alike related (.ok x : Except ε α) (.ok y) := .inl ⟨x, y, rfl, rfl, same⟩

theorem Alike.error (error : ε) :
    Alike related (.error error : Except ε α) (.error error) := .inr ⟨error, rfl, rfl⟩

theorem Alike.bind {first : Except ε α} {other : Except ε β} {next : α → Except ε γ}
    {otherNext : β → Except ε δ} (start : Alike related first other)
    (go : ∀ x y, related x y → Alike after (next x) (otherNext y)) :
    Alike after (first >>= next) (other >>= otherNext) := by
  rcases start with ⟨x, y, rfl, rfl, same⟩ | ⟨error, rfl, rfl⟩
  · exact go x y same
  · exact .error error

theorem rel_cases {answer : Option α} {other : Option β} (rel : Option.Rel related answer other) :
    (∃ x y, answer = some x ∧ other = some y ∧ related x y) ∨ answer = none ∧ other = none := by
  cases rel with
  | some same => exact .inl ⟨_, _, rfl, rfl, same⟩
  | none => exact .inr ⟨rfl, rfl⟩
end

/-! ## Expressions -/

section
variable {left right : Object} (alike : SameShape left right)
include alike

theorem rel_answer (name : String) :
    Option.Rel SameShape (answer? left name) (answer? right name) := by
  obtain ⟨capabilities, attributes, keys, -, -, -, -, -⟩ := alike
  have key : Option.Rel SameShape
      (if right.capabilities.keys then left.key? name else none)
      (if right.capabilities.keys then right.key? name else none) := by
    split
    · exact keys name
    · exact .none
  rw [answer?, answer?, capabilities]
  split
  · rcases rel_cases (attributes name) with ⟨x, y, found, again, same⟩ | ⟨missing, absent⟩
    · rw [found, again]
      exact .some same
    · rw [missing, absent]
      exact key
  · exact key

theorem rel_itemAt? (digits : String) :
    Option.Rel SameShape (itemAt? left digits) (itemAt? right digits) := by
  obtain ⟨-, -, -, positions, -, -, -, -⟩ := alike
  rw [itemAt?, itemAt?]
  cases Decimal.natural? Decimal.wordBound digits with
  | none => exact .none
  | some i => exact positions i

theorem capabilities_eq : left.capabilities = right.capabilities := by
  obtain ⟨same, -, -, -, -, -, -, -⟩ := alike
  exact same

theorem alike_step (segment : Step) :
    Alike SameShape (step left segment) (step right segment) := by
  cases segment with
  | key name =>
    rw [step, step, capabilities_eq alike]
    rcases rel_cases (rel_answer alike name) with ⟨x, y, found, again, same⟩ | ⟨missing, absent⟩
    · rw [found, again]
      exact .ok same
    · rw [missing, absent]
      exact .error _
  | index digits =>
    rw [step, step, capabilities_eq alike]
    rcases rel_cases (rel_answer alike digits) with ⟨x, y, found, again, same⟩ | ⟨missing, absent⟩
    · rw [found, again]
      exact .ok same
    · rw [missing, absent]
      dsimp only
      split
      · rcases rel_cases (rel_itemAt? alike digits) with ⟨x, y, found, again, same⟩ | ⟨none, no⟩
        · rw [found, again]
          exact .ok same
        · rw [none, no]
          exact .error _
      · exact .error _

theorem alike_walk (path : String) (steps : List Step) :
    Alike SameShape (walk path steps left) (walk path steps right) := by
  induction steps generalizing path left right with
  | nil => exact .ok alike
  | cons next steps ih =>
    rw [walk, walk]
    rcases alike_step alike next with ⟨x, y, found, again, same⟩ | ⟨reason, failed, again⟩
    · rw [found, again]
      exact ih same _
    · rw [failed, again]
      exact .error _

theorem alike_resolve (expr : Expr) : Alike SameShape (resolve expr left) (resolve expr right) := by
  induction expr with
  | literal text => exact .ok (Object.sameShape_plain text text)
  | current => exact .ok alike
  | chain base steps ih =>
    rw [resolve, resolve]
    exact ih.bind fun _ _ same => alike_walk same base.spelling steps

/-! ## Rounds -/

theorem rel_components? :
    Option.Rel PairShape (components? left) (components? right) := by
  obtain ⟨capabilities, -, -, positions, -, -, -, -⟩ := alike
  rw [components?, components?, capabilities]
  split
  · rcases rel_cases (positions 0) with ⟨key, other, found, again, keys⟩ | ⟨missing, absent⟩
    · rcases rel_cases (positions 1) with ⟨value, last, there, too, values⟩ | ⟨missing, absent⟩
      · rw [found, again, there, too]
        exact .some ⟨keys, values⟩
      · rw [found, again, missing, absent]
        exact .none
    · rw [missing, absent]
      exact .none
  · exact .none

end

/-- Rounds with objects of the same shapes, which end in the same way. -/
structure RoundsAlike (rounds others : Rounds) : Prop where
  objects : List.Forall₂ PairShape rounds.objects others.objects
  failure : rounds.failure = others.failure

namespace RoundsAlike

theorem fail (error : LookupError) : RoundsAlike (.fail error) (.fail error) := ⟨.nil, rfl⟩

theorem each {items others : List Object} (alike : List.Forall₂ SameShape items others) :
    RoundsAlike (.each items) (.each others) := by
  refine ⟨?_, rfl⟩
  show List.Forall₂ PairShape (items.map fun item => (item, item)) (others.map fun item => (item, item))
  rw [List.forall₂_map_left_iff, List.forall₂_map_right_iff]
  exact alike.imp fun _ _ same => ⟨same, same⟩

theorem numbers (count start : Nat) : RoundsAlike (.numbers count start) (.numbers count start) := by
  refine each (List.forall₂_same.mpr fun item member => ?_)
  obtain ⟨n, -, rfl⟩ := List.mem_map.mp member
  exact Object.sameShape_counting (some n) _ _

theorem ofPairs (failure : LookupError) {items others : List Object}
    (alike : List.Forall₂ SameShape items others) :
    RoundsAlike (.ofPairs failure items) (.ofPairs failure others) := by
  induction alike with
  | nil => exact ⟨.nil, rfl⟩
  | cons first rest ih =>
    rw [Rounds.ofPairs, Rounds.ofPairs]
    rcases rel_cases (rel_components? first) with ⟨x, y, found, again, same⟩ | ⟨missing, absent⟩
    · rw [found, again]
      exact ⟨.cons same ih.objects, ih.failure⟩
    · rw [missing, absent]
      exact fail failure

section
variable {left right : Object} (alike : SameShape left right) (source : Expr)
include alike

theorem ofItems : RoundsAlike (.ofItems source left) (.ofItems source right) := by
  obtain ⟨capabilities, -, -, -, items, firsts, seconds, counts⟩ := alike
  rw [Rounds.ofItems, Rounds.ofItems, capabilities, counts]
  split
  · exact each items
  · split
    · refine each ?_
      rw [List.forall₂_map_left_iff, List.forall₂_map_right_iff]
      exact (Object.pairShape_of_components firsts seconds).imp fun _ _ same =>
        Object.sameShape_pair same.1 same.2
    · split
      · exact numbers _ 0
      · exact fail _

theorem ofEntries : RoundsAlike (.ofEntries source left) (.ofEntries source right) := by
  obtain ⟨capabilities, -, -, -, items, firsts, seconds, -⟩ := alike
  rw [Rounds.ofEntries, Rounds.ofEntries, capabilities]
  split
  · exact ⟨Object.pairShape_of_components firsts seconds, rfl⟩
  · split
    · exact ofPairs _ items
    · exact fail _

end

end RoundsAlike

theorem alike_rounds {left right : Object} (alike : SameShape left right)
    (repetition : Option Repetition) :
    RoundsAlike (rounds repetition left) (rounds repetition right) := by
  match repetition with
  | none => exact ⟨.cons ⟨alike, alike⟩ .nil, rfl⟩
  | some (.times count) => exact .numbers count 0
  | some (.items source) =>
    rw [rounds, rounds]
    rcases alike_resolve alike source with ⟨x, y, found, again, same⟩ | ⟨error, failed, again⟩
    · rw [found, again]
      exact .ofItems same source
    · rw [failed, again]
      exact .fail error
  | some (.entries source) =>
    rw [rounds, rounds]
    rcases alike_resolve alike source with ⟨x, y, found, again, same⟩ | ⟨error, failed, again⟩
    · rw [found, again]
      exact .ofEntries same source
    · rw [failed, again]
      exact .fail error

/-! ## Trees -/

/-- Trees with the same skeleton. -/
def SameSkeleton (forest others : List Tree) : Prop := skeletonAll forest = skeletonAll others

theorem SameSkeleton.append {forest others more rest : List Tree} (front : SameSkeleton forest others)
    (back : SameSkeleton more rest) : SameSkeleton (forest ++ more) (others ++ rest) := by
  rw [SameSkeleton, Xml.skeletonAll_append, Xml.skeletonAll_append, front, back]

theorem alike_append {forest others more rest : Except RenderError (List Tree)}
    (front : Alike SameSkeleton forest others) (back : Alike SameSkeleton more rest) :
    Alike SameSkeleton (do
      let first ← forest
      let last ← more
      return first ++ last) (do
      let first ← others
      let last ← rest
      return first ++ last) :=
  front.bind fun _ _ same => back.bind fun _ _ again => .ok (same.append again)

section
variable {left right : Object} (alike : SameShape left right)
include alike

theorem alike_textOf (source : Expr) :
    Alike (fun _ _ => True) (textOf source left) (textOf source right) := by
  rw [textOf, textOf]
  rcases alike_resolve alike source with ⟨x, y, found, again, -⟩ | ⟨error, failed, again⟩
  · rw [found, again]
    exact .ok trivial
  · rw [failed, again]
    exact .error _

omit alike in
/-- A literal name is the same for all objects. -/
theorem alike_nameOf (kind : NameKind) {name : Expr} (literal : name.IsLiteral) :
    Alike Eq (nameOf kind name left) (nameOf kind name right) := by
  obtain ⟨text, rfl⟩ := literal
  show Alike Eq (nameOf kind (.literal text) left) (nameOf kind (.literal text) left)
  cases nameOf kind (.literal text) left with
  | ok name => exact .ok rfl
  | error error => exact .error error

theorem alike_attributesOf {items : List Attribute}
    (literal : ∀ item ∈ items, item.name.IsLiteral) :
    Alike (fun attributes others => attributes.map Prod.fst = others.map Prod.fst)
      (attributesOf items left) (attributesOf items right) := by
  induction items with
  | nil => exact .ok rfl
  | cons item items ih =>
    obtain ⟨first, others⟩ := List.forall_mem_cons.mp literal
    rw [attributesOf, attributesOf]
    refine (alike_nameOf .attribute first).bind fun name other same => ?_
    refine (alike_textOf alike item.value).bind fun _ _ _ => ?_
    refine (ih others).bind fun _ _ again => .ok ?_
    rw [List.map_cons, List.map_cons, again, same]

theorem alike_elementOf {head : Head} (literal : head.LiteralNames)
    {children others : Except RenderError (List Tree)} (inner : Alike SameSkeleton children others) :
    Alike SameSkeleton (elementOf head left children) (elementOf head right others) := by
  rw [elementOf, elementOf]
  refine (alike_nameOf .tag literal.tag).bind fun tag _ same => ?_
  refine (alike_attributesOf alike literal.attributes).bind fun attributes _ names => ?_
  refine inner.bind fun forest _ inside => .ok ?_
  simp [SameSkeleton, skeletonAll, Tree.skeleton, same, names, show _ = _ from inside]

end

section
variable {trees others : Object → Object → Except RenderError (List Tree)}
  (each : ∀ round other, PairShape round other →
    Alike SameSkeleton (trees round.1 round.2) (others other.1 other.2))
include each

theorem alike_gather {left right : List (Object × Object)} (alike : List.Forall₂ PairShape left right) :
    Alike SameSkeleton (Rounds.gather trees left) (Rounds.gather others right) := by
  induction alike with
  | nil => exact .ok rfl
  | cons first rest ih => exact alike_append (each _ _ first) ih

theorem alike_forest {left right : Rounds} (alike : RoundsAlike left right) :
    Alike SameSkeleton (left.forest trees) (right.forest others) := by
  rw [Rounds.forest, Rounds.forest, alike.failure]
  refine (alike_gather each alike.objects).bind fun _ _ same => ?_
  cases right.failure with
  | none => exact .ok same
  | some error => exact .error _

end

mutual
theorem alike_trees {node : Node} (literal : node.LiteralNames) {left right : Object}
    (alike : SameShape left right) : Alike SameSkeleton (trees node left) (trees node right) := by
  cases node with
  | element head children =>
    obtain ⟨front, inner⟩ := literal
    rw [trees, trees]
    exact alike_forest (fun round other same =>
      alike_elementOf same.1 front (alike_treesAll inner same.2)) (alike_rounds alike head.repetition)
  | text text => exact .ok rfl
  | value source =>
    rw [trees, trees]
    exact (alike_textOf alike source).bind fun _ _ _ => .ok rfl
  | scope source children =>
    rw [trees, trees]
    rcases alike_resolve alike source with ⟨x, y, found, again, same⟩ | ⟨error, failed, again⟩
    · rw [found, again]
      exact alike_treesAll literal same
    · rw [failed, again]
      exact .error _

theorem alike_treesAll {nodes : List Node} (literal : Node.AllLiteralNames nodes)
    {left right : Object} (alike : SameShape left right) :
    Alike SameSkeleton (treesAll nodes left) (treesAll nodes right) := by
  cases nodes with
  | nil => exact .ok rfl
  | cons node nodes =>
    obtain ⟨first, others⟩ := literal
    exact alike_append (alike_trees first alike) (alike_treesAll others alike)
end

/-! ## Templates -/

/-- Texts of host data change nothing but attribute values and character data: for objects of the same
shape a template with literal names fails with the same error, or gives texts with the same elements in
the same order and nesting and with the same attribute names. -/
theorem alike_render {template : Template} (literal : template.LiteralNames) {left right : Object}
    (alike : SameShape left right) :
    Alike (fun text other => ∃ skeleton,
        Xml.skeleton? text = some skeleton ∧ Xml.skeleton? other = some skeleton)
      (template.render left) (template.render right) := by
  rw [render_eq_spellAll, render_eq_spellAll]
  rcases alike_treesAll literal alike with ⟨trees, others, grown, again, same⟩ | ⟨error, failed, again⟩
  · have text := Xml.skeleton?_spellAll (allPlain_treesAll grown)
    have other := Xml.skeleton?_spellAll (allPlain_treesAll again)
    rw [forest, forest, grown, again]
    exact .ok ⟨skeletonAll trees, text, by rw [other, same]⟩
  · rw [forest, forest, failed, again]
    exact .error error

/-- Rows for plain pairs, and for pairs that spell markup. -/
theorem alike_render_hostile :
    let template : Template :=
      ⟨[.element ⟨.literal "row", some (.items .current),
        [⟨.literal "key", .chain .current [.index "0"]⟩]⟩ [.value (.chain .current [.index "1"])]]⟩
    let root (first second : String) := Object.sequence [.pair (.plain first) (.plain second)] first
    let escaped := "<row key=\"&quot;&gt;&lt;x y=&quot;\">&lt;/row&gt;&lt;row&gt;</row>"
    template.LiteralNames ∧ SameShape (root "a" "b") (root "\"><x y=\"" "</row><row>") ∧
      template.render (root "a" "b") = .ok "<row key=\"a\">b</row>" ∧
      template.render (root "\"><x y=\"" "</row><row>") = .ok escaped ∧
      ∃ skeleton, Xml.skeleton? "<row key=\"a\">b</row>" = some skeleton ∧
        Xml.skeleton? escaped = some skeleton := by
  intro template root escaped
  have literal : template.LiteralNames :=
    ⟨⟨⟨⟨"row", rfl⟩, List.forall_mem_singleton.mpr ⟨"key", rfl⟩⟩, trivial, trivial⟩, trivial⟩
  have pair := Object.sameShape_pair (Object.sameShape_plain "a" "\"><x y=\"")
    (Object.sameShape_plain "b" "</row><row>")
  have alike : SameShape (root "a" "b") (root "\"><x y=\"" "</row><row>") :=
    Object.sameShape_sequence (.cons pair .nil) _ _
  have one : template.render (root "a" "b") = .ok "<row key=\"a\">b</row>" := rfl
  have two : template.render (root "\"><x y=\"" "</row><row>") = .ok escaped := rfl
  have step := alike_render literal alike
  rw [one, two] at step
  rcases step with ⟨text, other, same, again, skeleton⟩ | ⟨error, failed, -⟩
  · cases same
    cases again
    exact ⟨literal, alike, one, two, skeleton⟩
  · cases failed

end Render

end XmlTemplate
