import XmlTemplate.Proofs.Format.Tracking

/-!
# Compiling ends within its bounds

Scanning by position and reading with a cursor are loops and recursions of which nothing says beforehand
that they end. They do on every format: a call that succeeds takes a character, a reader that succeeds
takes a token. All the time the cursor stands on a token and the number of open levels is in its range.

Results:
1. `progresses_of_tracks`: a reader ends, and moves on if it succeeds.
2. `scansWithin`, `readsWithin`: scanning and reading on their own.
3. `compiles_within_bounds`: both, for every format.
-/

namespace XmlTemplate.Format

/-! ## Scanning -/

/-- What scanning does with the characters. -/
structure ScansWithin (format : List Char) : Prop where
  /-- A call before the end of the characters ends. It fails, or it gives a token and moves past one
  character or more, and not past the end. -/
  calls : ∀ pos < format.length, ∃ outcome next, nextToken format pos = some (outcome, next) ∧
    ∀ found, outcome = .ok found → found.isSome ∧ pos < next ∧ next ≤ format.length
  /-- The calls come to an end, with the tokens of the format or its fault. -/
  ends : ∃ next, scanAll format 0 = some ((tokens format).map Tokens.toList, next)

theorem scansWithin (format : List Char) : ScansWithin format where
  calls := by
    intro pos before
    obtain ⟨outcome, next, run, called⟩ := nextToken_spec format pos
    refine ⟨outcome, next, run, ?_⟩
    rintro found rfl
    cases called with
    | ends last => exact absurd before (Nat.not_lt.mpr last)
    | token further within scanned => exact ⟨rfl, further, within⟩
  ends := scanAll_eq format 0

/-! ## Reading -/

namespace Listing

theorem exists_toList_eq_drop {stream : Tokens} {pos : Nat} (inside : pos < stream.toList.length) :
    ∃ tokens : Tokens, stream.toList.drop pos = tokens.toList := by
  induction stream generalizing pos with
  | done offset =>
    obtain rfl : pos = 0 := Nat.lt_one_iff.mp inside
    exact ⟨.done offset, rfl⟩
  | next token offset rest ih =>
    cases pos with
    | zero => exact ⟨.next token offset rest, rfl⟩
    | succ pos => exact ih (Nat.lt_of_succ_lt_succ inside)

/-- Where a cursor stands on a token, the tokens from there on are left. -/
theorem exists_at {stream : Tokens} {s : Cursor} (inside : s.pos < stream.toList.length) :
    ∃ tokens, s.At stream tokens :=
  exists_toList_eq_drop inside

/-- The reader ends at this cursor. Whether it succeeds or fails, it stays on the tokens, leaves as many
levels open as it has found and does nothing improper. If it succeeds, it has taken a token. -/
def Progresses {α : Type} (list : Listing) (walk : Reading α) (s : Cursor) : Prop :=
  ∃ outcome t, walk s = some (outcome, t) ∧ Keeps list s t ∧ ∀ x, outcome = .ok x → s.pos < t.pos

theorem progresses_of_tracks {α : Type} {stream tokens : Tokens} {s : Cursor} {walk : Reading α}
    {result : Except Fault (α × Tokens)} (here : s.At stream tokens)
    (tracks : Tracks stream walk result s)
    (shorter : ∀ x rest, result = .ok (x, rest) → rest.size < tokens.size) :
    Progresses stream.toList walk s := by
  obtain ⟨t, run, keeps, there⟩ := tracks.ends
  refine ⟨_, t, run, keeps, fun x success => ?_⟩
  obtain ⟨⟨y, rest⟩, read, rfl⟩ := Result.map_eq_ok.mp success
  exact here.lt_of_size (there y rest read) (shorter y rest read)

theorem size_lt_of_readStep {tokens rest : Tokens} {step : Step}
    (read : readStep tokens = .ok (step, rest)) : rest.size < tokens.size := by
  cases tokens with
  | done place => cases read
  | next token place more =>
    cases token with
    | bare word | quoted text =>
      cases read
      exact Nat.lt_succ_self _
    | _ => cases read

end Listing

open Listing

/-- What reading does with the tokens and the levels. -/
structure ReadsWithin (stream : Tokens) : Prop where
  node : ∀ s : Cursor, s.pos < stream.toList.length →
    Progresses stream.toList (Listing.node stream.toList) s
  expr : ∀ expected, ∀ s : Cursor, s.pos < stream.toList.length →
    Progresses stream.toList (Listing.expr stream.toList expected) s
  /-- A segment is read only at a dot. -/
  step : ∀ s : Cursor, (stream.toList[s.pos]?).map Prod.fst = some (some .dot) →
    Progresses stream.toList (Listing.step stream.toList) s
  /-- An element or a scope leaves as many levels open as it finds, also when it fails. -/
  nested : ∀ s : Cursor, s.pos < stream.toList.length →
    Progresses stream.toList (Listing.nested stream.toList) s
  /-- Reading the whole document ends with what is read without a cursor. Whatever has been looked at or
  taken on the way is a token of the list, the end of the input has not been taken, and no level has
  been opened beyond the deepest one. -/
  document : ∃ t, Listing.document stream.toList .initial = some (readDocument stream, t) ∧
    t.depth = 0 ∧ t.pos < stream.toList.length ∧ ∀ use ∈ t.uses, use.Proper stream.toList

theorem readsWithin (stream : Tokens) : ReadsWithin stream where
  node := by
    intro s inside
    obtain ⟨tokens, here⟩ := exists_at inside
    refine progresses_of_tracks here (tracks_node (tracks_nested _) here rfl) ?_
    exact size_lt_of_sound (anyNode_of_readNode (nested_of_readNested false _))
      (fun _ _ _ phrase => phrase.1.length_lt) tokens
  expr := by
    intro expected s inside
    obtain ⟨tokens, here⟩ := exists_at inside
    refine progresses_of_tracks here (tracks_expr expected here) ?_
    exact size_lt_of_sound (fun _ _ _ => value_of_readExpr false)
      (fun _ _ _ => Grammar.Value.length_lt) tokens
  step := by
    intro s dot
    obtain ⟨⟨found, place⟩, there, starts⟩ := Option.map_eq_some_iff.mp dot
    obtain ⟨inside, -⟩ := List.getElem?_eq_some_iff.mp there
    obtain ⟨tokens, here⟩ := exists_at inside
    rw [here.getElem?] at there
    cases tokens with
    | done offset =>
      cases there
      cases starts
    | next token offset rest =>
      cases there
      cases starts
      refine progresses_of_tracks here (tracks_step here) fun step last read => ?_
      exact Nat.lt_succ_of_lt (size_lt_of_readStep read)
  nested := by
    intro s inside
    obtain ⟨tokens, here⟩ := exists_at inside
    refine progresses_of_tracks here (tracks_nested _ s tokens here rfl) ?_
    exact size_lt_of_sound (nested_of_readNested false _)
      (fun _ _ _ phrase => phrase.1.length_lt) tokens
  document := by
    have here : Cursor.initial.At stream stream := rfl
    obtain ⟨t, run, keeps, -⟩ := (tracks_document here rfl).ends
    obtain ⟨more, added, proper⟩ := keeps.uses
    have same : (readMany goesOn readTop stream).map Prod.fst = readDocument stream := by
      rw [readDocument]
      cases readMany goesOn readTop stream <;> rfl
    refine ⟨t, same ▸ run, keeps.depth, keeps.inside, fun use member => ?_⟩
    rw [added] at member
    exact proper use member

/-! ## Compiling -/

/-- The nodes of a format with their offsets, from tokens that are found by position and read with a
cursor. -/
def nodesByCursor (format : List Char) : Option (Except Fault (List (Nat × Node))) := do
  match ← scanAll format 0 with
  | (.ok list, _) => do
    let (outcome, _) ← Listing.document list .initial
    return outcome
  | (.error fault, _) => return .error fault

theorem nodesByCursor_eq (format : List Char) :
    nodesByCursor format = some (Template.nodesOf false format) := by
  obtain ⟨next, scanned⟩ := (scansWithin format).ends
  rw [nodesByCursor, scanned, Template.nodesOf]
  cases tokens format with
  | error fault => rfl
  | ok stream =>
    obtain ⟨t, read, -⟩ := (readsWithin stream).document
    show (Listing.document stream.toList .initial).bind _ = _
    rw [read]
    show some (readDocument stream) = some (readDocument stream >>= fun nodes => .ok nodes)
    cases readDocument stream <;> rfl

/-- Scanning and reading stay within their bounds and end, whatever the format is, and the nodes are those
of the format. -/
theorem compiles_within_bounds (format : List Char) :
    ScansWithin format ∧ (∀ stream, tokens format = .ok stream → ReadsWithin stream) ∧
      nodesByCursor format = some (Template.nodesOf false format) :=
  ⟨scansWithin format, fun stream _ => readsWithin stream, nodesByCursor_eq format⟩

/-- The inner element is closed and the outer one is not. Both levels have been closed when reading
fails. -/
theorem compiles_within_bounds_unclosed :
    ∃ stream t, tokens "<a<b>".toList = .ok stream ∧ ReadsWithin stream ∧
      Listing.document stream.toList .initial =
        some (.error ⟨5, .elementEnd, .endOfInput⟩, t) ∧ t.depth = 0 := by
  have within := (compiles_within_bounds "<a<b>".toList).2.1 _ rfl
  obtain ⟨t, read, closed, -⟩ := within.document
  exact ⟨_, t, rfl, within, read, closed⟩

end XmlTemplate.Format
