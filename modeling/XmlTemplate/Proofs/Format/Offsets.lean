import XmlTemplate.Proofs.Format.Detached

/-!
# Where nodes start

Reading keeps an offset for each node of the outermost level. It is the one place at which the format
falls apart into a format for the nodes before this one and a format for this node and those after it.

Results:
1. `leaves_readNested`, `leaves_readNode`: what a reader leaves are tokens at the end of its input.
2. `parts_of_readWithin`: reading comes to every node at its offset.
3. `startsAt_iff`: the place at which a node starts.
-/

namespace XmlTemplate.Format

open Grammar
open Result (bind_eq_ok)

/-! ## Tokens that are left -/

section
variable {α β : Type} {tokens rest : Tokens}

/-- If reading succeeds, it leaves tokens at the end of its input, with their offsets. -/
structure Leaves (tokens : Tokens) (result : Except Fault (α × Tokens)) : Prop where
  suffix : ∀ {x rest}, result = .ok (x, rest) → rest.toList <:+ tokens.toList

namespace Leaves

theorem ok (x : α) (tokens : Tokens) : Leaves tokens (.ok (x, tokens)) where
  suffix := by
    rintro _ _ ⟨⟩
    exact List.suffix_refl _

theorem error (fault : Fault) : @Leaves α tokens (.error fault) where
  suffix := nofun

theorem next {token : Token} {offset : Nat} {result : Except Fault (α × Tokens)}
    (leaves : Leaves tokens result) : Leaves (.next token offset tokens) result where
  suffix read := suffix_toList_next.mpr (.inr (leaves.suffix read))

theorem bind {first : Except Fault (α × Tokens)} {more : α × Tokens → Except Fault (β × Tokens)}
    (start : Leaves tokens first) (go : ∀ x middle, Leaves middle (more (x, middle))) :
    Leaves tokens (first >>= more) where
  suffix read := by
    obtain ⟨⟨x, middle⟩, found, read⟩ := bind_eq_ok.mp read
    exact ((go x middle).suffix read).trans (start.suffix found)

end Leaves
end

theorem leaves_readSteps (tokens : Tokens) : Leaves tokens (readSteps tokens) := by
  fun_induction readSteps tokens with
  | case1 dotAt word wordAt rest ih => exact .next (.next (ih.bind fun _ _ => .ok ..))
  | case2 dotAt text textAt rest ih => exact .next (.next (ih.bind fun _ _ => .ok ..))
  | case3 dotAt rest bare quoted => exact .error _
  | case4 tokens bare quoted dot => exact .ok ..

theorem leaves_readExpr (expected : Expectation) (tokens : Tokens) :
    Leaves tokens (readExpr expected tokens) := by
  unfold readExpr
  split
  · exact .next ((leaves_readSteps _).bind fun _ _ => .ok ..)
  · exact (leaves_readSteps _).bind fun _ _ => .ok ..
  · exact .next (.ok ..)
  · exact .next (.ok ..)
  · exact .error _

theorem leaves_readSource (expected : Expectation) (tokens : Tokens) :
    Leaves tokens (readSource expected tokens) := by
  unfold readSource
  split
  · exact leaves_readExpr expected tokens
  · exact .error _

theorem leaves_readRepetition (tokens : Tokens) : Leaves tokens (readRepetition tokens) := by
  unfold readRepetition
  split
  · split
    · split
      · exact .next (.ok ..)
      · exact .error _
    · exact .error _
  · exact (leaves_readSource ..).bind fun _ _ => .ok ..

theorem leaves_readTag (tokens : Tokens) : Leaves tokens (readTag tokens) := by
  unfold readTag
  split
  · exact .next ((leaves_readSource ..).bind fun _ _ => .ok ..)
  · refine (leaves_readExpr ..).bind fun name rest => ?_
    dsimp only
    split
    · exact .next ((leaves_readRepetition _).bind fun _ _ => .ok ..)
    · exact .ok ..

theorem leaves_readAttribute (tokens : Tokens) : Leaves tokens (readAttribute tokens) := by
  unfold readAttribute
  split
  · refine .next ((leaves_readExpr ..).bind fun name rest => ?_)
    dsimp only
    split
    · exact (leaves_readExpr ..).bind fun _ _ => .ok ..
    · exact .ok ..
  · exact .error _

theorem leaves_readContent (tokens : Tokens) : Leaves tokens (readContent tokens) :=
  (leaves_readExpr ..).bind fun _ _ => .ok ..

theorem leaves_readWithin {α : Type} {starts : Tokens → Bool}
    {item : Tokens → Except Fault (α × Tokens)} (each : ∀ tokens, Leaves tokens (item tokens))
    (bound tokens : Tokens) : Leaves tokens (readWithin starts item bound tokens) := by
  induction bound generalizing tokens with
  | done offset => exact .ok ..
  | next token offset bound ih =>
    rw [readWithin]
    split
    · exact (each tokens).bind fun _ middle => (ih middle).bind fun _ _ => .ok ..
    · exact .ok ..

section
variable {nested : Tokens → Except Fault (Node × Tokens)}
  (each : ∀ tokens, Leaves tokens (nested tokens))
include each

theorem leaves_readChildren (tokens : Tokens) : Leaves tokens (readChildren nested tokens) := by
  unfold readChildren
  split
  · exact .next ((leaves_readContent _).bind fun _ _ => .ok ..)
  · exact leaves_readWithin each ..

theorem leaves_readElement (tokens : Tokens) : Leaves tokens (readElement nested tokens) := by
  refine (leaves_readTag tokens).bind fun tag rest => ?_
  refine (leaves_readWithin leaves_readAttribute ..).bind fun attributes rest => ?_
  refine (leaves_readChildren each rest).bind fun children rest => ?_
  dsimp only
  split
  · exact .next (.ok ..)
  · exact .error _

theorem leaves_readNode (tokens : Tokens) : Leaves tokens (readNode nested tokens) := by
  unfold readNode
  split
  · exact .next (leaves_readContent _)
  · split
    · exact each _
    · exact .error _

theorem leaves_readScope (tokens : Tokens) : Leaves tokens (readScope nested tokens) := by
  refine (leaves_readSource ..).bind fun source rest => ?_
  refine (leaves_readWithin (leaves_readNode each) ..).bind fun children rest => ?_
  dsimp only
  split
  · exact .next (.ok ..)
  · exact .error _
end

theorem leaves_readNested (levels : Nat) (tokens : Tokens) :
    Leaves tokens (readNested levels tokens) := by
  induction levels generalizing tokens with
  | zero => exact .error _
  | succ levels ih =>
    unfold readNested
    split
    · exact .error _
    · rename_i shape
      cases shape
      exact .next (leaves_readElement ih _)
    · rename_i shape
      cases shape
      exact .next (leaves_readScope ih _)
    · exact .error _

theorem leaves_readTop (tokens : Tokens) : Leaves tokens (readTop tokens) :=
  (leaves_readNode (leaves_readNested maxDepth) tokens).bind fun _ _ => .ok ..

/-! ## Nodes that are reached -/

theorem sound_readTop : Sound readTop fun tokens placed rest => Shallow tokens placed.2 rest := by
  intro tokens placed rest read
  obtain ⟨⟨node, last⟩, found, read⟩ := bind_eq_ok.mp read
  cases read
  exact sound_readNode true _ _ _ found

theorem offset_of_readTop {tokens rest : Tokens} {placed : Nat × Node}
    (read : readTop tokens = .ok (placed, rest)) : placed.1 = tokens.offset := by
  obtain ⟨⟨node, last⟩, found, read⟩ := bind_eq_ok.mp read
  cases read
  rfl

theorem Grammar.Many.map {α β : Type} {phrase : List Token → β → List Token → Prop} {f : α → β}
    {tokens rest : List Token} {xs : List α}
    (many : Many (fun tokens x rest => phrase tokens (f x) rest) tokens xs rest) :
    Many phrase tokens (xs.map f) rest := by
  induction many with
  | nil rest => exact .nil rest
  | cons first others ih => exact .cons first ih

/-- If anything is read, its first item is, and the others are read after it. -/
theorem readWithin_eq_cons {α : Type} {starts : Tokens → Bool}
    {item : Tokens → Except Fault (α × Tokens)} {bound tokens last : Tokens} {x : α} {xs : List α}
    (read : readWithin starts item bound tokens = .ok (x :: xs, last)) :
    ∃ shorter middle, item tokens = .ok (x, middle) ∧
      readWithin starts item shorter middle = .ok (xs, last) := by
  cases bound with
  | done offset => cases read
  | next token offset bound =>
    rw [readWithin] at read
    split at read
    · obtain ⟨⟨first, middle⟩, found, read⟩ := bind_eq_ok.mp read
      obtain ⟨⟨others, rest⟩, more, read⟩ := bind_eq_ok.mp read
      cases read
      exact ⟨bound, middle, found, more⟩
    · cases read

/-- On the way to the end, reading comes to each node at its offset. -/
theorem parts_of_readWithin {bound stream last : Tokens} {before after : List (Nat × Node)}
    {offset : Nat} {node : Node} (ends : last.sequence = [])
    (read : readWithin goesOn readTop bound stream = .ok (before ++ (offset, node) :: after, last)) :
    ∃ rest : Tokens, rest.offset = offset ∧
      Parts stream rest (before.map Prod.snd) (node :: after.map Prod.snd) := by
  induction before generalizing bound stream with
  | nil =>
    have phrases := (many_of_readWithin sound_readTop read).map
    rw [ends] at phrases
    obtain ⟨shorter, middle, first, more⟩ := readWithin_eq_cons read
    exact ⟨stream, (offset_of_readTop first).symm, List.suffix_refl _, .nil _, phrases⟩
  | cons placed before ih =>
    obtain ⟨shorter, middle, first, more⟩ := readWithin_eq_cons read
    obtain ⟨rest, place, parts⟩ := ih more
    exact ⟨rest, place, parts.tail.trans ((leaves_readTop stream).suffix first),
      .cons (sound_readTop _ _ _ first) parts.front, parts.back⟩

/-- The same nodes cannot be taken from the same tokens in two ways. -/
theorem rest_unique {tokens : Tokens} {nodes : List Node} {rest other : List Token}
    (first : Many Shallow tokens.sequence nodes rest) (ends : breaks rest = true)
    (second : Many Shallow tokens.sequence nodes other) (stops : breaks other = true) :
    rest = other := by
  induction nodes generalizing tokens with
  | nil =>
    cases first
    cases second
    rfl
  | cons node nodes ih =>
    rcases first with _ | ⟨one, others⟩
    rcases second with _ | ⟨two, more⟩
    -- reading decides where the first node ends
    obtain ⟨found, after, read, last, -⟩ :=
      complete_nodes.gives one (complete_nodes.breaks_many others ends) rfl
    obtain ⟨found, again, reread, same, -⟩ :=
      complete_nodes.gives two (complete_nodes.breaks_many more stops) rfl
    cases read.symm.trans reread
    subst last
    subst same
    exact ih others more

theorem parts_unique {stream rest other : Tokens} {before after more : List Node}
    (first : Parts stream rest before after) (second : Parts stream other before more) :
    rest = other := by
  have same := rest_unique first.front (breaks_of_shallow first.back) second.front
    (breaks_of_shallow second.back)
  have length : rest.toList.length = other.toList.length := by
    rw [toList_length, toList_length, same]
  have part := List.suffix_of_suffix_length_le first.tail second.tail (Nat.le_of_eq length)
  exact toList_injective (part.eq_of_length length)

end XmlTemplate.Format

/-! ## Places of nodes -/

namespace XmlTemplate.Template

open Format Format.Grammar

/-- At this offset a format falls apart into formats for the nodes before it and for those after it. -/
def StartsAt (format : String) (before after : List Node) (offset : Nat) : Prop :=
  ∃ front back, format = front ++ back ∧ front.length = offset ∧
    compile front = .ok ⟨before⟩ ∧ compile back = .ok ⟨after⟩

/-- The format falls apart where its tokens do. -/
theorem startsAt_of_parts {format : String} {stream rest : Tokens} {before after : List Node}
    (scanned : scan 0 format.toList = .ok stream) (parts : Parts stream rest before after) :
    StartsAt format before after rest.offset := by
  obtain ⟨front, back, first, split, clean, scannedFront, scannedBack, shape⟩ :=
    scan_split (clean_of_tokens scanned) scanned parts.tail
  obtain ⟨moved, shifted, same⟩ := scan_shift clean scannedBack 0
  -- the phrases are made of the tokens of the first part only
  obtain ⟨taken, whole, detached⟩ := detach_shallow parts.front
  obtain rfl : taken = first.sequence := List.append_cancel_right (whole.symm.trans shape)
  have phrases := detached [] (by simp)
  rw [List.append_nil] at phrases
  refine ⟨.ofList front, .ofList back, ?_, ?_, ?_, ?_⟩
  · rw [← String.ofList_append, ← split, String.ofList_toList]
  · rw [offset_of_scan clean scannedBack, Nat.zero_add, String.length_ofList]
  · exact compile_eq_ok_iff_shallow.mpr ⟨first, by rwa [String.toList_ofList], phrases⟩
  · exact compile_eq_ok_iff_shallow.mpr ⟨moved, by rwa [String.toList_ofList], same ▸ parts.back⟩

theorem nodesOf_eq_ok {format : List Char} {placed : List (Nat × Node)}
    (read : nodesOf false format = .ok placed) :
    ∃ stream last, scan 0 format = .ok stream ∧
      readWithin goesOn readTop stream stream = .ok (placed, last) ∧ last.sequence = [] := by
  obtain ⟨stream, scanned, read⟩ := Result.bind_eq_ok.mp read
  obtain ⟨found, read, same⟩ := Result.bind_eq_ok.mp read
  cases same
  obtain ⟨⟨found, last⟩, read, same⟩ := Result.bind_eq_ok.mp read
  cases same
  rw [readMany] at read
  have whole := readWithin_readTop stream stream
  rw [read] at whole
  obtain ⟨offset, rfl⟩ := done_of_readNodes whole.symm
  exact ⟨stream, .done offset, scanned, read, rfl⟩

/-- The offset that is kept for a node of the outermost level is the one place at which it starts. -/
theorem startsAt_iff {format : String} {before after : List (Nat × Node)} {offset : Nat} {node : Node}
    (read : nodesOf false format.toList = .ok (before ++ (offset, node) :: after)) (place : Nat) :
    StartsAt format (before.map Prod.snd) (node :: after.map Prod.snd) place ↔ place = offset := by
  obtain ⟨stream, last, scanned, read, ends⟩ := nodesOf_eq_ok read
  obtain ⟨rest, rfl, parts⟩ := parts_of_readWithin ends read
  constructor
  · rintro ⟨front, back, rfl, rfl, left, right⟩
    obtain ⟨again, other, rescanned, there, others⟩ := parts_of_compile left right
    cases scanned.symm.trans rescanned
    rw [← there, parts_unique parts others]
  · rintro rfl
    exact startsAt_of_parts scanned parts

end XmlTemplate.Template
