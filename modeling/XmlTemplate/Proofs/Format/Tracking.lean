import XmlTemplate.Proofs.Format.Cursor
import XmlTemplate.Proofs.Format.Offsets

/-!
# Readers with a cursor and without

Every reader with a cursor ends. What it reads, or the fault with which it fails, is what is read from
the tokens at the cursor, and its record is in order: it has looked at tokens of the list only, has not
taken the end of the input, and has not opened more levels than there may be.

Results:
1. `tracks_steps`, `tracks_expr`: expressions.
2. `tracks_loop`: loops over items.
3. `tracks_nested`: elements and scopes.
4. `tracks_document`: whole documents.
-/

namespace XmlTemplate.Format

namespace Listing

/-! ## What the record shows -/

/-- A reader that went from `s` to `t` has closed the levels that it opened, stands within the list and
has done nothing improper. -/
structure Keeps (list : Listing) (s t : Cursor) : Prop where
  depth : t.depth = s.depth
  inside : t.pos < list.length
  uses : ∃ more, t.uses = s.uses ++ more ∧ ∀ use ∈ more, use.Proper list

theorem Keeps.trans {list : Listing} {s t u : Cursor} (first : Keeps list s t)
    (second : Keeps list t u) : Keeps list s u := by
  obtain ⟨before, added, proper⟩ := first.uses
  obtain ⟨after, further, others⟩ := second.uses
  refine ⟨second.depth.trans first.depth, second.inside, before ++ after, ?_, fun use member => ?_⟩
  · rw [further, added, List.append_assoc]
  · exact (List.mem_append.mp member).elim (proper use) (others use)

section
variable {stream tokens rest : Tokens} {s t : Cursor} {α β : Type}

/-- The reader ends with what is read from the tokens at its cursor: it stands at the tokens after it,
or fails with its fault. -/
structure Tracks (stream : Tokens) (walk : Reading α) (result : Except Fault (α × Tokens)) (s : Cursor) :
    Prop where
  ends : ∃ t, walk s = some (result.map Prod.fst, t) ∧ Keeps stream.toList s t ∧
    ∀ x rest, result = .ok (x, rest) → t.At stream rest

namespace Tracks

theorem pure (x : α) (here : s.At stream tokens) :
    Tracks stream (Pure.pure x) (.ok (x, tokens)) s where
  ends := by
    refine ⟨s, rfl, ⟨rfl, here.lt_length, [], by simp, by simp⟩, ?_⟩
    rintro _ _ ⟨⟩
    exact here

/-- A reader goes on after a first one that succeeds, and fails with it. -/
theorem bind {first : Reading α} {next : α → Reading β} {result : Except Fault (α × Tokens)}
    {more : α × Tokens → Except Fault (β × Tokens)} (start : Tracks stream first result s)
    (go : ∀ x rest t, result = .ok (x, rest) → t.At stream rest → t.depth = s.depth →
      Tracks stream (next x) (more (x, rest)) t) :
    Tracks stream (first >>= next) (result >>= more) s where
  ends := by
    obtain ⟨t, run, keeps, there⟩ := start.ends
    cases result with
    | error fault => exact ⟨t, Walk.bind_error run, keeps, nofun⟩
    | ok both =>
      obtain ⟨x, rest⟩ := both
      obtain ⟨u, again, others, last⟩ := (go x rest t rfl (there x rest rfl) keeps.depth).ends
      exact ⟨u, (Walk.bind_ok run).trans again, keeps.trans others, last⟩

/-- A reader goes on after a first one of which the result is known. -/
theorem after {first : Reading α} {next : α → Reading β} {result : Except Fault (β × Tokens)} {x : α}
    (start : Tracks stream first (.ok (x, rest)) s)
    (go : ∀ t, t.At stream rest → t.depth = s.depth → Tracks stream (next x) result t) :
    Tracks stream (first >>= next) result s where
  ends := by
    obtain ⟨t, run, keeps, there⟩ := start.ends
    obtain ⟨u, again, others, last⟩ := (go t (there x rest rfl) keeps.depth).ends
    exact ⟨u, (Walk.bind_ok run).trans again, keeps.trans others, last⟩

/-- A reader makes something of what another one gives. -/
theorem map {first : Reading α} {result : Except Fault (α × Tokens)} {f : α → β}
    (start : Tracks stream first result s) :
    Tracks stream (do return f (← first)) (result >>= fun both => .ok (f both.1, both.2)) s :=
  start.bind fun _ _ _ _ here _ => .pure _ here

/-- A reader fails with its first part. -/
theorem fails {first : Reading α} {next : α → Reading β} {fault : Fault}
    (start : Tracks stream first (.error fault) s) :
    Tracks stream (first >>= next) (.error fault) s where
  ends := by
    obtain ⟨t, run, keeps, -⟩ := start.ends
    exact ⟨t, Walk.bind_error run, keeps, nofun⟩

end Tracks

/-! ## Looking, taking and failing -/

theorem keeps_look (here : s.At stream tokens) : Keeps stream.toList s (s.add (.look s.pos)) :=
  ⟨rfl, here.lt_length, [.look s.pos], rfl, by simpa [Use.Proper] using here.lt_length⟩

theorem tracks_peek (here : s.At stream tokens) :
    Tracks stream (peek stream.toList) (.ok (tokens.first?, tokens)) s where
  ends := by
    refine ⟨s.add (.look s.pos), ?_, keeps_look here, ?_⟩
    · show some (Except.ok ((stream.toList[s.pos]?).elim none Prod.fst), _) = _
      rw [here.getElem?]
      rfl
    · rintro _ _ ⟨⟩
      exact here

theorem tracks_place (here : s.At stream tokens) :
    Tracks stream (place stream.toList) (.ok (tokens.offset, tokens)) s where
  ends := by
    refine ⟨s.add (.look s.pos), ?_, keeps_look here, ?_⟩
    · show some (Except.ok (((stream.toList[s.pos]?).or _).elim 0 Prod.snd), _) = _
      rw [here.getElem?]
      rfl
    · rintro _ _ ⟨⟩
      exact here

theorem tracks_advance {token : Token} {offset : Nat}
    (here : s.At stream (.next token offset tokens)) :
    Tracks stream (advance stream.toList) (.ok (some token, tokens)) s where
  ends := by
    have after : Cursor.At stream { s.add (.take s.pos) with pos := s.pos + 1 } tokens :=
      drop_succ_of_drop here
    refine ⟨{ s.add (.take s.pos) with pos := s.pos + 1 }, ?_,
      ⟨rfl, after.lt_length, [.take s.pos], rfl, ?_⟩, ?_⟩
    · show some (Except.ok ((stream.toList[s.pos]?).elim none Prod.fst), _) = _
      rw [here.getElem?]
      rfl
    · simpa [Use.Proper] using ⟨token, offset, here.getElem?⟩
    · rintro _ _ ⟨⟩
      exact after

theorem tracks_fail (expected : Expectation) (here : s.At stream tokens) :
    Tracks stream (fail (α := α) stream.toList expected) (.error (tokens.fault expected)) s := by
  refine (tracks_place here).after fun t here _ => (tracks_peek here).after fun u here _ => ?_
  refine ⟨u, ?_, ⟨rfl, here.lt_length, [], by simp, by simp⟩, nofun⟩
  cases tokens <;> rfl

theorem tracks_expect {sign : Token} {offset : Nat} (here : s.At stream (.next sign offset tokens)) :
    Tracks stream (expect stream.toList sign) (.ok ((), tokens)) s := by
  refine (tracks_peek here).after fun t here _ => ?_
  rw [Tokens.first?, if_pos rfl]
  exact (tracks_advance here).after fun u here _ => .pure _ here

theorem tracks_expect_of_ne {sign : Token} (here : s.At stream tokens)
    (other : tokens.first? ≠ some sign) :
    Tracks stream (expect stream.toList sign) (.error (tokens.fault .node)) s := by
  refine (tracks_peek here).after fun t here _ => ?_
  rw [if_neg other]
  exact tracks_fail _ here

/-! ## Expressions -/

/-- The segment after a dot. -/
def readStep : Tokens → Except Fault (Step × Tokens)
  | .next (.bare word) _ rest => .ok (stepOfBare word, rest)
  | .next (.quoted text) _ rest => .ok (.key text, rest)
  | tokens => .error (tokens.fault .segment)

theorem tracks_step {offset : Nat} (here : s.At stream (.next .dot offset tokens)) :
    Tracks stream (step stream.toList) (readStep tokens) s := by
  refine (tracks_advance here).after fun t here _ => (tracks_peek here).after fun u here _ => ?_
  cases tokens with
  | done place => exact tracks_fail _ here
  | next token place rest =>
    cases token with
    | bare word | quoted text => exact (tracks_advance here).after fun v here _ => .pure _ here
    | _ => exact tracks_fail _ here

theorem tracks_steps (here : s.At stream tokens) :
    Tracks stream (steps stream.toList) (readSteps tokens) s := by
  fun_induction readSteps tokens generalizing s with
  | case1 dotAt word wordAt rest ih =>
    rw [steps.eq_1]
    refine (tracks_peek here).after fun t here _ => (tracks_step here).after fun u here _ => ?_
    exact (ih here).map
  | case2 dotAt text textAt rest ih =>
    rw [steps.eq_1]
    refine (tracks_peek here).after fun t here _ => (tracks_step here).after fun u here _ => ?_
    exact (ih here).map
  | case3 dotAt rest bare quoted =>
    rw [steps.eq_1]
    refine (tracks_peek here).after fun t here _ => ?_
    have failed := tracks_step here
    rw [readStep.eq_3 rest bare quoted] at failed
    exact failed.fails
  | case4 tokens bare quoted dot =>
    rw [steps.eq_1]
    refine (tracks_peek here).after fun t here _ => ?_
    have other : tokens.first? ≠ some .dot := by
      intro starts
      cases tokens with
      | done place => cases starts
      | next token place rest =>
        cases starts
        exact dot place rest rfl
    rw [if_neg other]
    exact .pure _ here

theorem tracks_expr (expected : Expectation) (here : s.At stream tokens) :
    Tracks stream (expr stream.toList expected) (readExpr expected tokens) s := by
  refine (tracks_peek here).after fun t here _ => ?_
  cases tokens with
  | done place => exact tracks_fail expected here
  | next token place rest =>
    cases token with
    | question =>
      refine (tracks_advance here).after fun u here _ => ?_
      exact (tracks_steps here).map
    | dot => exact (tracks_steps here).map
    | bare word | quoted text => exact (tracks_advance here).after fun v here _ => .pure _ here
    | _ => exact tracks_fail expected here

theorem tracks_source (expected : Expectation) (here : s.At stream tokens) :
    Tracks stream (source stream.toList expected) (readSource expected tokens) s := by
  refine (tracks_peek here).after fun t here _ => ?_
  cases tokens with
  | done place => exact tracks_fail expected here
  | next token place rest =>
    cases token with
    | question | dot => exact tracks_expr expected here
    | _ => exact tracks_fail expected here

/-! ## Parts of an element -/

theorem tracks_repetition (here : s.At stream tokens) :
    Tracks stream (repetition stream.toList) (readRepetition tokens) s := by
  have items {t : Cursor} (here : t.At stream tokens) :
      Tracks stream (do return Repetition.items (← source stream.toList .repetitionSource))
        (readSource .repetitionSource tokens >>= fun both => .ok (.items both.1, both.2)) t :=
    (tracks_source _ here).map
  refine (tracks_peek here).after fun t here _ => ?_
  cases tokens with
  | done place => exact items here
  | next token place rest =>
    cases token with
    | bare word =>
      cases digits : isDigits word with
      | true =>
        have count := digits?_eq_some_iff.mpr ⟨digits, rfl⟩
        simp only [Tokens.first?, readRepetition, digits, count, if_true]
        split
        · exact (tracks_advance here).after fun u here _ => .pure _ here
        · exact tracks_fail _ here
      | false =>
        have none : Decimal.digits? word.toList = none := by
          refine Option.eq_none_iff_forall_ne_some.mpr fun count found => ?_
          rw [(digits?_eq_some_iff.mp found).1] at digits
          cases digits
        simp only [Tokens.first?, readRepetition, digits, none]
        exact items here
    | _ => exact items here

theorem tracks_named (here : s.At stream tokens)
    (other : ∀ offset rest, tokens = .next .tilde offset rest → False) :
    Tracks stream (named stream.toList) (readTag tokens) s := by
  rw [readTag.eq_2 tokens other]
  refine (tracks_expr _ here).bind fun name rest t _ here _ => ?_
  refine (tracks_peek here).after fun u here _ => ?_
  cases rest with
  | done place => exact .pure _ here
  | next token place rest =>
    cases token with
    | star => exact (tracks_advance here).after fun v here _ => (tracks_repetition here).map
    | _ => exact .pure _ here

theorem tracks_tag (here : s.At stream tokens) :
    Tracks stream (tag stream.toList) (readTag tokens) s := by
  refine (tracks_peek here).after fun t here _ => ?_
  cases tokens with
  | done place => exact tracks_named here (by simp)
  | next token place rest =>
    cases token with
    | tilde => exact (tracks_advance here).after fun u here _ => (tracks_source _ here).map
    | _ => exact tracks_named here (by simp)

theorem tracks_pairing {offset : Nat} (here : s.At stream (.next .equals offset tokens)) :
    Tracks stream (pairing stream.toList) (readAttribute (.next .equals offset tokens)) s := by
  refine (tracks_advance here).after fun t here _ => ?_
  refine (tracks_expr _ here).bind fun name rest u _ here _ => ?_
  refine (tracks_peek here).after fun v here _ => ?_
  cases rest with
  | done place => exact .pure _ here
  | next token place rest =>
    cases token with
    | question | dot | bare word | quoted text =>
      exact (tracks_expr _ here).map
    | _ => exact .pure _ here

theorem tracks_content (here : s.At stream tokens) :
    Tracks stream (content stream.toList) (readContent tokens) s :=
  (tracks_expr _ here).map

/-! ## Loops -/

/-- A loop ends where no item starts. Each item takes a token, so there are fewer items than tokens in
the bound. -/
theorem tracks_loop {starts : Tokens → Bool} {test : Option Token → Prop} [DecidablePred test]
    {item : Reading α} {reader : Tokens → Except Fault (α × Tokens)} {loop : Reading (List α)}
    {depth : Nat}
    (unfolds : loop = do
      if test (← peek stream.toList) then
        let first ← item
        let others ← loop
        return first :: others
      else return [])
    (same : ∀ tokens, starts tokens = true ↔ test tokens.first?) (stops : ¬ test none)
    (shorter : ∀ tokens x rest, reader tokens = .ok (x, rest) → rest.size < tokens.size)
    (each : ∀ s tokens, s.At stream tokens → s.depth = depth → starts tokens = true →
      Tracks stream item (reader tokens) s)
    {bound : Tokens} (enough : tokens.size ≤ bound.size) (here : s.At stream tokens)
    (level : s.depth = depth) :
    Tracks stream loop (readWithin starts reader bound tokens) s := by
  induction bound generalizing s tokens with
  | done offset =>
    rw [unfolds]
    refine (tracks_peek here).after fun t here _ => ?_
    cases tokens with
    | done place =>
      rw [Tokens.first?, if_neg stops]
      exact .pure _ here
    | next token place rest => simp at enough
  | next token offset bound ih =>
    rw [unfolds]
    refine (tracks_peek here).after fun t here unchanged => ?_
    rw [readWithin]
    by_cases begins : starts tokens = true
    · rw [if_pos begins, if_pos ((same tokens).mp begins)]
      refine (each t tokens here (unchanged.trans level) begins).bind fun x rest u read here kept => ?_
      -- the item took a token, so the rest of the bound is enough for the rest of the tokens
      have fewer := shorter _ _ _ read
      rw [Tokens.size_next] at enough
      have others := ih (Nat.le_of_lt_succ (Nat.lt_of_lt_of_le fewer enough)) here
        (kept.trans (unchanged.trans level))
      exact others.map
    · rw [if_neg begins, if_neg fun test => begins ((same tokens).mpr test)]
      exact .pure _ here

theorem tracks_pairings (here : s.At stream tokens) :
    Tracks stream (pairings stream.toList) (readMany startsAttribute readAttribute tokens) s := by
  have same (tokens : Tokens) : startsAttribute tokens = true ↔ tokens.first? = some .equals := by
    cases tokens with
    | done place => simp [startsAttribute, Tokens.first?]
    | next token place rest => cases token <;> simp [startsAttribute, Tokens.first?]
  refine tracks_loop (pairings.eq_1 _) same (by simp) ?_ (fun t tokens here _ begins => ?_)
    (Nat.le_refl _) here rfl
  · exact size_lt_of_sound (fun _ _ _ => pairing_of_readAttribute false)
      fun _ _ _ => Grammar.Pairing.length_lt
  · cases tokens with
    | done place => cases begins
    | next token place rest =>
      cases token with
      | equals => exact tracks_pairing here
      | _ => cases begins

/-! ## Nodes -/

/-- Elements and scopes are read where so many levels are left. -/
def TracksNested (stream : Tokens) (levels : Nat) : Prop :=
  ∀ s tokens, s.At stream tokens → maxDepth - s.depth = levels →
    Tracks stream (nested stream.toList) (readNested levels tokens) s

section
variable {levels : Nat} (each : TracksNested stream levels)
include each

theorem tracks_node (here : s.At stream tokens) (room : maxDepth - s.depth = levels) :
    Tracks stream (node stream.toList) (readNode (readNested levels) tokens) s := by
  rw [node.eq_1]
  refine (tracks_peek here).after fun t here kept => ?_
  rw [← kept] at room
  cases tokens with
  | done place => exact tracks_fail _ here
  | next token place rest =>
    cases token with
    | less | openBrace => exact each t _ here room
    | ampersand => exact (tracks_advance here).after fun u here _ => tracks_content here
    | _ => exact tracks_fail _ here

theorem tracks_nestedNodes (here : s.At stream tokens) (room : maxDepth - s.depth = levels) :
    Tracks stream (nestedNodes stream.toList)
      (readMany startsNested (readNested levels) tokens) s := by
  have same (tokens : Tokens) : startsNested tokens = true ↔
      [some Token.less, some .openBrace].contains tokens.first? = true := by
    rw [startsNested_iff, sequence_head?]
    simp
  refine tracks_loop (nestedNodes.eq_1 _) same (by simp) ?_ (fun t tokens here kept begins => ?_)
    (Nat.le_refl _) here rfl
  · exact size_lt_of_sound (nested_of_readNested false levels) fun _ _ _ phrase => phrase.1.length_lt
  · have found := tracks_node each here (by rw [kept, room])
    rcases startsNested_iff.mp begins with starts | starts <;>
      obtain ⟨place, rest, rfl⟩ := eq_next_of_head? starts <;> exact found

theorem tracks_nodes (here : s.At stream tokens) (room : maxDepth - s.depth = levels) :
    Tracks stream (nodes stream.toList)
      (readMany startsNode (readNode (readNested levels)) tokens) s := by
  have same (tokens : Tokens) : startsNode tokens = true ↔
      [some Token.less, some .openBrace, some .ampersand].contains tokens.first? = true := by
    cases tokens with
    | done place => simp [startsNode, Tokens.first?]
    | next token place rest => cases token <;> simp [startsNode, Tokens.first?]
  refine tracks_loop (nodes.eq_1 _) same (by simp) ?_
    (fun t tokens here kept _ => tracks_node each here (by rw [kept, room])) (Nat.le_refl _) here rfl
  exact size_lt_of_sound (anyNode_of_readNode (nested_of_readNested false levels))
    fun _ _ _ phrase => phrase.1.length_lt

theorem tracks_children (here : s.At stream tokens) (room : maxDepth - s.depth = levels) :
    Tracks stream (children stream.toList) (readChildren (readNested levels) tokens) s := by
  rw [children.eq_1]
  refine (tracks_peek here).after fun t here kept => ?_
  rw [← kept] at room
  cases tokens with
  | done place => exact tracks_nestedNodes each here room
  | next token place rest =>
    cases token with
    | ampersand =>
      refine (tracks_advance here).after fun u here _ => ?_
      exact (tracks_content here).map
    | _ => exact tracks_nestedNodes each here room

theorem tracks_element {offset : Nat} (here : s.At stream (.next .less offset tokens))
    (room : maxDepth - s.depth = levels) :
    Tracks stream (element stream.toList) (readElement (readNested levels) tokens) s := by
  rw [element.eq_1]
  refine (tracks_expect here).after fun t here kept => ?_
  refine (tracks_tag here).bind fun head rest u _ here stayed => ?_
  refine (tracks_pairings here).bind fun attributes rest v _ here same => ?_
  have room : maxDepth - v.depth = levels := by rw [same, stayed, kept, room]
  refine (tracks_children each here room).bind fun children rest w _ here _ => ?_
  refine (tracks_peek here).after fun x here _ => ?_
  cases rest with
  | done place => exact tracks_fail _ here
  | next token place rest =>
    cases token with
    | greater => exact (tracks_advance here).after fun y here _ => .pure _ here
    | _ => exact tracks_fail _ here

theorem tracks_scope {offset : Nat} (here : s.At stream (.next .openBrace offset tokens))
    (room : maxDepth - s.depth = levels) :
    Tracks stream (scope stream.toList) (readScope (readNested levels) tokens) s := by
  rw [scope.eq_1]
  refine (tracks_expect here).after fun t here kept => ?_
  refine (tracks_source _ here).bind fun source rest u _ here stayed => ?_
  have room : maxDepth - u.depth = levels := by rw [stayed, kept, room]
  refine (tracks_nodes each here room).bind fun children rest v _ here _ => ?_
  refine (tracks_peek here).after fun w here _ => ?_
  cases rest with
  | done place => exact tracks_fail _ here
  | next token place rest =>
    cases token with
    | closeBrace => exact (tracks_advance here).after fun x here _ => .pure _ here
    | _ => exact tracks_fail _ here

/-- One level is open for the element or the scope itself. -/
theorem tracks_inside (here : s.At stream tokens) (room : maxDepth - s.depth = levels) :
    Tracks stream (inside stream.toList) (readNested (levels + 1) tokens) s := by
  have neither {t : Cursor} (here : t.At stream tokens) (other : tokens.first? ≠ some .openBrace) :
      Tracks stream (scope stream.toList) (.error (tokens.fault .node)) t := by
    rw [scope.eq_1]
    exact (tracks_expect_of_ne here other).fails
  rw [inside.eq_1]
  refine (tracks_peek here).after fun t here kept => ?_
  rw [← kept] at room
  cases tokens with
  | done place => exact neither here nofun
  | next token place rest =>
    cases token with
    | less => exact tracks_element each here room
    | openBrace => exact tracks_scope each here room
    | _ => exact neither here nofun
end

/-- The induction is on the levels that are left. Inside an element or a scope there is one less. -/
theorem tracks_nested (levels : Nat) : TracksNested stream levels := by
  induction levels with
  | zero =>
    intro s tokens here room
    obtain ⟨t, run, keeps, there⟩ := (tracks_fail (α := Node) .shallower here).ends
    refine ⟨t, ?_, keeps, there⟩
    rw [nested.eq_1, if_pos (Nat.sub_eq_zero_iff_le.mp room)]
    exact run
  | succ levels ih =>
    intro s tokens here room
    have shallow : s.depth < maxDepth := by omega
    have entered : s.deeper.At stream tokens := here
    have inner := tracks_inside ih entered (by show maxDepth - (s.depth + 1) = levels; omega)
    obtain ⟨t, run, keeps, there⟩ := inner.ends
    refine ⟨t.higher, ?_, ⟨?_, keeps.inside, ?_⟩, there⟩
    · rw [nested.eq_1, if_neg (Nat.not_le.mpr shallow), run]
      rfl
    · show t.depth - 1 = s.depth
      rw [keeps.depth]
      rfl
    · obtain ⟨more, added, proper⟩ := keeps.uses
      refine ⟨.enter (s.depth + 1) :: more, ?_, ?_⟩
      · show t.uses = _
        rw [added]
        exact List.append_assoc ..
      · rintro use (_ | ⟨_, member⟩)
        · exact shallow
        · exact proper use member

/-! ## Documents -/

theorem tracks_top (here : s.At stream tokens) (fresh : s.depth = 0) :
    Tracks stream (top stream.toList) (readTop tokens) s := by
  refine (tracks_place here).after fun t here kept => ?_
  refine (tracks_node (tracks_nested maxDepth) here (by rw [kept, fresh]; rfl)).bind ?_
  exact fun _ _ _ _ here _ => .pure _ here

theorem tracks_document (here : s.At stream tokens) (fresh : s.depth = 0) :
    Tracks stream (document stream.toList) (readMany goesOn readTop tokens) s := by
  have same (tokens : Tokens) : goesOn tokens = true ↔ tokens.first?.isSome = true := by
    cases tokens <;> simp [goesOn, Tokens.first?]
  refine tracks_loop (document.eq_1 _) same (by simp) ?_
    (fun t tokens here kept _ => tracks_top here kept) (Nat.le_refl _) here fresh
  exact size_lt_of_sound sound_readTop fun _ _ _ phrase => phrase.1.length_lt

end

end Listing

end XmlTemplate.Format
