import XmlTemplate.Proofs.Format.Canonical
import XmlTemplate.Proofs.Format.Seams

/-!
# Phrases in front of other tokens

A phrase is made of the tokens in front of what follows it. They are a phrase for the same thing in
front of anything else that does not prolong it, and only a dot can do so. No node starts with a dot,
so formats can be written one after another.

Results:
1. `Value.detach`, `Pairing.detach`, `Nested.detach`: phrases in front of other tokens.
2. `Many.detach`: phrases one after another.
3. `parts_of_compile`: the phrases in two formats in a row.
4. `compile_append`: two formats in a row compile to the nodes of both.
-/

namespace XmlTemplate.Format.Grammar

variable {α : Type} {tokens rest : List Token}

/-- The tokens of a phrase, without those that follow it, are a phrase in front of all tokens that do
not start with a dot. -/
def Detached (phrase : List Token → α → List Token → Prop) (tokens : List Token) (x : α)
    (rest : List Token) : Prop :=
  ∃ front, tokens = front ++ rest ∧
    ∀ other, other.head? ≠ some .dot → phrase (front ++ other) x other

namespace Detached

variable {β : Type} {phrase : List Token → α → List Token → Prop}
  {whole : List Token → β → List Token → Prop} {x : α} {y : β}

theorem imp (detached : Detached phrase tokens x rest)
    (build : ∀ {tokens rest}, phrase tokens x rest → whole tokens y rest) :
    Detached whole tokens y rest := by
  obtain ⟨front, shape, again⟩ := detached
  exact ⟨front, shape, fun other ends => build (again other ends)⟩

/-- A sign in front of a phrase is part of the whole. -/
theorem cons (detached : Detached phrase tokens x rest) (sign : Token)
    (build : ∀ {tokens rest}, phrase tokens x rest → whole (sign :: tokens) y rest) :
    Detached whole (sign :: tokens) y rest := by
  obtain ⟨front, rfl, again⟩ := detached
  exact ⟨sign :: front, rfl, fun other ends => build (again other ends)⟩

end Detached

/-! ## Expressions -/

theorem Segment.detach {step : Step} (phrase : Segment tokens step rest) :
    ∃ front, tokens = front ++ rest ∧ ∀ other, Segment (front ++ other) step other := by
  cases phrase with
  | index rest digits => exact ⟨[.dot, .bare _], rfl, fun other => .index other digits⟩
  | key rest digits => exact ⟨[.dot, .bare _], rfl, fun other => .key other digits⟩
  | quoted text rest => exact ⟨[.dot, .quoted text], rfl, fun other => .quoted text other⟩

theorem Segments.detach {steps : List Step} (phrase : Segments true tokens steps rest) :
    Detached (Segments true) tokens steps rest := by
  induction phrase with
  | nil stops => exact ⟨[], rfl, fun other ends => .nil fun _ => not_segment_of_not_dot ends⟩
  | cons first others ih =>
    obtain ⟨front, rfl, one⟩ := first.detach
    obtain ⟨back, rfl, more⟩ := ih
    refine ⟨front ++ back, (List.append_assoc ..).symm, fun other ends => ?_⟩
    rw [List.append_assoc]
    exact .cons (one _) (more other ends)

theorem Source.detach {source : Expr} (phrase : Source true tokens source rest) :
    Detached (Source true) tokens source rest := by
  cases phrase with
  | question run => exact run.detach.cons .question .question
  | segments first run =>
    obtain ⟨front, rfl, one⟩ := first.detach
    obtain ⟨back, rfl, more⟩ := run.detach
    refine ⟨front ++ back, (List.append_assoc ..).symm, fun other ends => ?_⟩
    rw [List.append_assoc]
    exact .segments (one _) (more other ends)

theorem Value.detach {expr : Expr} (phrase : Value true tokens expr rest) :
    Detached (Value true) tokens expr rest := by
  cases phrase with
  | source phrase => exact phrase.detach.imp .source
  | bare word => exact ⟨[.bare word], rfl, fun other _ => .bare word other⟩
  | quoted text => exact ⟨[.quoted text], rfl, fun other _ => .quoted text other⟩

/-! ## Parts of an element -/

theorem Repeats.detach {repetition : Repetition} (phrase : Repeats true tokens repetition rest) :
    Detached (Repeats true) tokens repetition rest := by
  cases phrase with
  | count rest digits small => exact ⟨[.bare _], rfl, fun other _ => .count other digits small⟩
  | items source => exact source.detach.imp .items

theorem Tag.detach {tag : Expr × Option Repetition} (phrase : Tag true tokens tag rest) :
    Detached (Tag true) tokens tag rest := by
  cases phrase with
  | entries source => exact source.detach.cons .tilde .entries
  | once name => exact name.detach.imp .once
  | repeated name repetition =>
    obtain ⟨front, rfl, named⟩ := name.detach
    obtain ⟨back, rfl, again⟩ := repetition.detach
    refine ⟨front ++ .star :: back, by simp, fun other ends => ?_⟩
    rw [List.append_assoc]
    exact .repeated (named _ (by simp)) (again other ends)

theorem append_not_dot {front other : List Token} (apart : (front ++ rest).head? ≠ some .dot)
    (ends : other.head? ≠ some .dot) : (front ++ other).head? ≠ some .dot := by
  cases front with
  | nil => exact ends
  | cons token front => exact apart

theorem Value.not_dot_of_maximal {expr : Expr} (phrase : Value true tokens expr rest)
    (maximal : ¬ ∃ step after, Segment tokens step after) : tokens.head? ≠ some .dot := by
  intro starts
  obtain ⟨step, steps, middle, first, run⟩ := phrase.segments starts
  exact maximal ⟨step, middle, first⟩

/-- A value after a name that goes on as long as possible does not start with a dot, unless the name
is a literal, which no dot prolongs. -/
theorem Pairing.detach {item : Attribute} (phrase : Pairing true tokens item rest) :
    Detached (Pairing true) tokens item rest := by
  cases phrase with
  | nameOnly name => exact name.detach.cons .equals .nameOnly
  | both name value =>
    cases name with
    | bare word =>
      obtain ⟨back, rfl, again⟩ := value.detach
      exact ⟨.equals :: .bare word :: back, rfl, fun other ends =>
        .both (.bare word _) (again other ends)⟩
    | quoted text =>
      obtain ⟨back, rfl, again⟩ := value.detach
      exact ⟨.equals :: .quoted text :: back, rfl, fun other ends =>
        .both (.quoted text _) (again other ends)⟩
    | source source =>
      have apart := value.not_dot_of_maximal source.maximal
      obtain ⟨front, rfl, named⟩ := source.detach
      obtain ⟨back, rfl, again⟩ := value.detach
      refine ⟨.equals :: (front ++ back), by simp, fun other ends => ?_⟩
      rw [List.cons_append, List.append_assoc]
      exact .both (.source (named _ (append_not_dot apart ends))) (again other ends)

theorem Content.detach {node : Node} (phrase : Content true tokens node rest) :
    Detached (Content true) tokens node rest := by
  cases phrase with
  | bare word => exact ⟨[.bare word], rfl, fun other _ => .bare word other⟩
  | quoted text => exact ⟨[.quoted text], rfl, fun other _ => .quoted text other⟩
  | source source => exact source.detach.imp .source

/-! ## Phrases one after another -/

section
variable {phrase : List Token → α → List Token → Prop} {xs ys : List α}

theorem Many.not_dot (many : Many phrase tokens xs rest)
    (starts : ∀ tokens x rest, phrase tokens x rest → tokens.head? ≠ some .dot)
    (ends : rest.head? ≠ some .dot) : tokens.head? ≠ some .dot := by
  cases many with
  | nil rest => exact ends
  | cons first others => exact starts _ _ _ first

theorem Many.detach (many : Many phrase tokens xs rest)
    (each : ∀ x ∈ xs, ∀ {tokens rest}, phrase tokens x rest → Detached phrase tokens x rest)
    (starts : ∀ tokens x rest, phrase tokens x rest → tokens.head? ≠ some .dot) :
    Detached (Many phrase) tokens xs rest := by
  induction many with
  | nil rest => exact ⟨[], rfl, fun other _ => .nil other⟩
  | cons first others ih =>
    obtain ⟨front, rfl, one⟩ := each _ (by simp) first
    obtain ⟨back, rfl, more⟩ := ih fun x member => each x (by simp [member])
    refine ⟨front ++ back, (List.append_assoc ..).symm, fun other ends => ?_⟩
    have others := more other ends
    rw [List.append_assoc]
    exact .cons (one _ (others.not_dot starts ends)) others

theorem Many.append {middle : List Token} (first : Many phrase tokens xs middle)
    (second : Many phrase middle ys rest) : Many phrase tokens (xs ++ ys) rest := by
  induction first with
  | nil rest => exact second
  | cons first others ih => exact .cons first (ih second)
end

/-! ## Nodes -/

theorem Pairing.not_dot (tokens : List Token) (item : Attribute) (rest : List Token)
    (phrase : Pairing true tokens item rest) : tokens.head? ≠ some .dot := by
  cases phrase <;> simp

theorem Nested.not_dot {node : Node} (phrase : Nested true tokens node rest) :
    tokens.head? ≠ some .dot := by
  cases phrase <;> simp

theorem AnyNode.not_dot {node : Node} (phrase : AnyNode true tokens node rest) :
    tokens.head? ≠ some .dot := not_dot_of_breaks phrase.breaks

theorem AnyNode.detach_of_nested {node : Node}
    (each : ∀ {tokens}, Nested true tokens node rest → Detached (Nested true) tokens node rest)
    (phrase : AnyNode true tokens node rest) : Detached (AnyNode true) tokens node rest := by
  cases phrase with
  | nested phrase => exact (each phrase).imp .nested
  | content phrase => exact phrase.detach.cons .ampersand .content

/-- The induction is on a bound of the nesting, which the nodes inside stay below. -/
theorem Nested.detach_of_depth (levels : Nat) :
    ∀ {tokens rest : List Token} {node : Node}, node.depth ≤ levels →
      Nested true tokens node rest → Detached (Nested true) tokens node rest := by
  induction levels with
  | zero =>
    intro tokens rest node shallow phrase
    cases phrase <;> simp at shallow
  | succ levels ih =>
    intro tokens rest node shallow phrase
    cases phrase with
    | content tag attributes child =>
      obtain ⟨inside, rfl, inner⟩ := child.detach
      obtain ⟨pairs, rfl, paired⟩ := attributes.detach (fun _ _ => Pairing.detach) Pairing.not_dot
      obtain ⟨front, rfl, named⟩ := tag.detach
      refine ⟨.less :: (front ++ (pairs ++ .ampersand :: (inside ++ [.greater]))), by simp,
        fun other ends => ?_⟩
      have child := inner (.greater :: other) (by simp)
      have attributes := paired (.ampersand :: (inside ++ .greater :: other)) (by simp)
      have tag := named _ (attributes.not_dot Pairing.not_dot (by simp))
      simpa using Nested.content tag attributes child
    | children tag attributes nodes =>
      have inside := depthAll_le_iff.mp (Nat.le_of_succ_le_succ shallow)
      obtain ⟨body, rfl, again⟩ := nodes.detach (fun node member => ih (inside node member))
        fun _ _ _ => Nested.not_dot
      obtain ⟨pairs, rfl, paired⟩ := attributes.detach (fun _ _ => Pairing.detach) Pairing.not_dot
      obtain ⟨front, rfl, named⟩ := tag.detach
      refine ⟨.less :: (front ++ (pairs ++ (body ++ [.greater]))), by simp, fun other ends => ?_⟩
      have nodes := again (.greater :: other) (by simp)
      have afterAttributes := nodes.not_dot (fun _ _ _ => Nested.not_dot) (by simp)
      have attributes := paired (body ++ .greater :: other) afterAttributes
      have tag := named _ (attributes.not_dot Pairing.not_dot afterAttributes)
      simpa using Nested.children tag attributes nodes
    | scope source nodes =>
      have inside := depthAll_le_iff.mp (Nat.le_of_succ_le_succ shallow)
      obtain ⟨body, rfl, again⟩ := nodes.detach
        (fun node member => AnyNode.detach_of_nested (ih (inside node member)))
        fun _ _ _ => AnyNode.not_dot
      obtain ⟨front, rfl, started⟩ := source.detach
      refine ⟨.openBrace :: (front ++ (body ++ [.closeBrace])), by simp, fun other ends => ?_⟩
      have nodes := again (.closeBrace :: other) (by simp)
      have source := started _ (nodes.not_dot (fun _ _ _ => AnyNode.not_dot) (by simp))
      simpa using Nested.scope source nodes

theorem AnyNode.detach {node : Node} (phrase : AnyNode true tokens node rest) :
    Detached (AnyNode true) tokens node rest :=
  detach_of_nested (Nested.detach_of_depth node.depth (Nat.le_refl _)) phrase

/-- A phrase for a node that is not nested too deep. -/
def Shallow (tokens : List Token) (node : Node) (rest : List Token) : Prop :=
  AnyNode true tokens node rest ∧ node.depth ≤ maxDepth

theorem Shallow.detach {node : Node} (phrase : Shallow tokens node rest) :
    Detached Shallow tokens node rest :=
  phrase.1.detach.imp fun inner => ⟨inner, phrase.2⟩

theorem detach_shallow {nodes : List Node} (phrases : Many Shallow tokens nodes rest) :
    Detached (Many Shallow) tokens nodes rest :=
  phrases.detach (fun _ _ => Shallow.detach) fun _ _ _ phrase => phrase.1.not_dot

theorem breaks_of_shallow {nodes : List Node} (phrases : Many Shallow tokens nodes []) :
    breaks tokens = true := complete_nodes.breaks_many phrases rfl

theorem ne_bare_of_breaks {stream : Tokens} (ends : breaks stream.sequence = true) (word : String) :
    stream.first? ≠ some (.bare word) := by
  intro starts
  obtain ⟨more, shape⟩ := List.head?_eq_some_iff.mp ((sequence_head? stream).trans starts)
  rw [shape] at ends
  cases ends

/-- The tokens go on with `rest`. There are phrases for the nodes before it up to there, and phrases for
the nodes after it from there to the end. -/
structure Parts (stream rest : Tokens) (before after : List Node) : Prop where
  tail : rest.toList <:+ stream.toList
  front : Many Shallow stream.sequence before rest.sequence
  back : Many Shallow rest.sequence after []

end XmlTemplate.Format.Grammar

/-! ## Formats -/

namespace XmlTemplate.Template

open Format Format.Grammar

theorem compile_eq_ok_iff_shallow {format : String} {nodes : List Node} :
    compile format = .ok ⟨nodes⟩ ↔
      ∃ stream, scan 0 format.toList = .ok stream ∧ Many Shallow stream.sequence nodes [] := by
  have flat (tokens : List Token) :
      Many Shallow tokens nodes [] ↔
        Document true tokens nodes ∧ Node.depthAll nodes ≤ maxDepth := by
    rw [depthAll_le_iff]
    exact many_and_iff
  simp only [flat, compile_eq_ok_iff_document]
  rfl

/-- The tokens of two formats in a row go on, at the offset of the second, with those of the second. -/
theorem parts_of_compile {front back : String} {before after : List Node}
    (left : compile front = .ok ⟨before⟩) (right : compile back = .ok ⟨after⟩) :
    ∃ stream rest, scan 0 (front ++ back).toList = .ok stream ∧ rest.offset = front.length ∧
      Parts stream rest before after := by
  obtain ⟨first, scanned, phrases⟩ := compile_eq_ok_iff_shallow.mp left
  obtain ⟨second, again, others⟩ := compile_eq_ok_iff_shallow.mp right
  have clean := clean_of_tokens again
  obtain ⟨rest, shifted, same⟩ := scan_shift clean again (0 + front.toList.length)
  rw [← same] at others
  -- a node does not start with a bare word, so nothing joins at the seam, and not with a dot, so
  -- nothing before it is prolonged
  have breaks := breaks_of_shallow others
  obtain ⟨stream, whole, shape, tail⟩ :=
    scan_seam (clean_of_tokens scanned) scanned shifted (ne_bare_of_breaks breaks)
  obtain ⟨taken, alone, detached⟩ := detach_shallow phrases
  rw [List.append_nil] at alone
  refine ⟨stream, rest, by rw [String.toList_append, whole], ?_, tail, ?_, others⟩
  · rw [offset_of_scan clean shifted, Nat.zero_add, String.length_toList]
  · rw [shape, alone]
    exact detached _ (not_dot_of_breaks breaks)

/-- Two formats in a row compile to the nodes of the one and then of the other. -/
theorem compile_append {front back : String} {before after : List Node}
    (left : compile front = .ok ⟨before⟩) (right : compile back = .ok ⟨after⟩) :
    compile (front ++ back) = .ok ⟨before ++ after⟩ := by
  obtain ⟨stream, rest, scanned, -, parts⟩ := parts_of_compile left right
  exact compile_eq_ok_iff_shallow.mpr ⟨stream, scanned, parts.front.append parts.back⟩

end XmlTemplate.Template
