import XmlTemplate.Proofs.Format.Acceptance
import XmlTemplate.Proofs.Format.Simulation
import XmlTemplate.Proofs.Format.Spelling

/-!
# Where compiling fails

A format that does not compile has an error at the first place at which nothing could save it. If it
has no tokens, this is its first lexical fault. If it has, this is the first token, or the end of the
input, such that no format that compiles starts with the tokens up to there.

Results:
1. `acceptedPrefix_of_advance`: tokens that the machine takes start a format that compiles.
2. `not_acceptedPrefix_of_stuck`: tokens at which the machine stops do not.
3. `compile_error_position`: the offset of every error.
-/

namespace XmlTemplate.Template

open Format

/-! ## Prefixes of formats that compile -/

/-- Some format that compiles has tokens that start like this; the end of the input counts as the
last of them. -/
def AcceptedPrefix (front : List (Option Token)) : Prop :=
  ∃ format template stream, compile format = .ok template ∧
    Format.tokens format.toList = .ok stream ∧ front <+: stream.toList.map Prod.fst

theorem AcceptedPrefix.of_prefix {front more : List (Option Token)} (longer : AcceptedPrefix more)
    (shorter : front <+: more) : AcceptedPrefix front := by
  obtain ⟨format, template, stream, compiled, scanned, starts⟩ := longer
  exact ⟨format, template, stream, compiled, scanned, shorter.trans starts⟩

theorem map_fst_toList (stream : Tokens) :
    stream.toList.map Prod.fst = stream.sequence.map some ++ [none] := by
  induction stream with
  | done offset => rfl
  | next token offset rest ih => simp [Tokens.toList, Tokens.sequence, ih]

/-- A format compiles if and only if the machine accepts its tokens. -/
theorem compile_ok_iff_accepts {format : String} {stream : Tokens}
    (scanned : Format.tokens format.toList = .ok stream) :
    (∃ template, compile format = .ok template) ↔ Accepts start stream.sequence := by
  rw [← readNodes_ok_iff]
  constructor
  · rintro ⟨template, compiled⟩
    obtain ⟨other, rest, again, read⟩ := compile_eq_ok_iff.mp compiled
    rw [scanned] at again
    cases again
    exact ⟨_, read⟩
  · rintro ⟨⟨nodes, rest⟩, read⟩
    exact ⟨⟨nodes⟩, compile_eq_ok_iff.mpr ⟨stream, rest, scanned, read⟩⟩

theorem completion_ne_bare (stack : List Pending) :
    ∀ token ∈ completion stack, ∀ word, token ≠ .bare word := by
  rintro token member word rfl
  obtain ⟨part, present, fills⟩ := List.mem_filterMap.mp member
  cases part <;> cases fills

/-- Tokens that the machine takes can be completed to a format that compiles. -/
theorem acceptedPrefix_of_advance {sequence : List Token} {last : List Pending}
    (spellable : Spellable sequence) (taken : advance start sequence = some last) :
    AcceptedPrefix (sequence.map some) := by
  -- a completion has no bare words, so it can be written right after the tokens
  have other := completion_ne_bare last
  have whole := spellable_append spellable (spellable_of_forall_ne_bare other) fun word starts =>
    other _ (List.mem_of_mem_head? starts) word rfl
  obtain ⟨stream, scanned, shape⟩ := scan_spelled whole 0
  obtain ⟨final, completed, optional⟩ := accepts_completion [] last (by simp)
  have accepted : Accepts start stream.sequence := by
    refine ⟨final, ?_, optional⟩
    rw [shape, advance_append, taken]
    exact completed
  have scanned : Format.tokens (String.ofList
      ((sequence ++ completion last).flatMap Token.spelled)).toList = .ok stream := by
    rw [String.toList_ofList]
    exact scanned
  obtain ⟨template, compiled⟩ := (compile_ok_iff_accepts scanned).mpr accepted
  refine ⟨_, template, stream, compiled, scanned, ?_⟩
  rw [map_fst_toList, shape, List.map_append, List.append_assoc]
  exact List.prefix_append ..

theorem prefix_of_map_some {front whole : List Token}
    (starts : front.map some <+: whole.map some ++ [none]) : front <+: whole := by
  have kept := starts.filterMap id
  simpa using kept

theorem eq_of_map_some_none {front whole : List Token}
    (starts : front.map some ++ [none] <+: whole.map some ++ [none]) : front = whole := by
  have part : front.map some <+: whole.map some ++ [none] :=
    (List.prefix_append ..).trans starts
  obtain ⟨more, rfl⟩ := prefix_of_map_some part
  obtain ⟨tail, same⟩ := starts
  rw [List.map_append, List.append_assoc, List.append_assoc] at same
  have rest := List.append_cancel_left same
  cases more with
  | nil => simp
  | cons token more => simp at rest

/-- Where the machine stops, no format that compiles goes on like this. -/
theorem not_acceptedPrefix_of_stuck {sequence : List Token} {last : List Pending}
    {token? : Option Token} (taken : advance start sequence = some last)
    (stuck : match token? with
      | some token => step last token = none
      | none => last.all Pending.optional = false) :
    ¬ AcceptedPrefix (sequence.map some ++ [token?]) := by
  rintro ⟨format, template, stream, compiled, scanned, starts⟩
  rw [map_fst_toList] at starts
  obtain ⟨final, taken', optional⟩ := (compile_ok_iff_accepts scanned).mp ⟨template, compiled⟩
  cases token? with
  | some token =>
    have starts : sequence ++ [token] <+: stream.sequence := by
      refine prefix_of_map_some ?_
      rwa [List.map_append]
    obtain ⟨more, shape⟩ := starts
    rw [← shape, List.append_assoc, advance_append, taken] at taken'
    simp [advance, stuck] at taken'
  | none =>
    -- the end of the input comes last, so these are all the tokens of the format
    rw [← eq_of_map_some_none starts, taken] at taken'
    cases taken'
    simp [stuck] at optional

/-! ## Positions -/

/-- The error of a format with tokens stands at the first of them that no format which compiles goes on
with. -/
theorem position_of_readNodes {format : String} {stream : Tokens} {fault : Fault}
    (scanned : Format.tokens format.toList = .ok stream)
    (faulty : readNodes stream = .error fault) :
    ∃ i, (stream.toList[i]?).map Prod.snd = some fault.offset ∧
      ∀ count, AcceptedPrefix ((stream.toList.map Prod.fst).take count) ↔ count ≤ i := by
  obtain ⟨i, token?, last, there, short, taken, stuck⟩ :=
    verdict_eq_some (verdict_of_readNodes_error faulty)
  have present : (stream.toList.map Prod.fst)[i]? = some token? := by
    rw [List.getElem?_map, there]
    rfl
  have before : (stream.toList.map Prod.fst).take i = (stream.sequence.take i).map some := by
    rw [map_fst_toList, List.take_append_of_le_length (by simpa using short), List.map_take]
  have spellable : Spellable (stream.sequence.take i) := by
    have whole := spellable_of_tokens scanned
    rw [← List.take_append_drop i stream.sequence] at whole
    exact spellable_of_append whole
  have good : AcceptedPrefix ((stream.toList.map Prod.fst).take i) := by
    rw [before]
    exact acceptedPrefix_of_advance spellable taken
  have bad : ¬ AcceptedPrefix ((stream.toList.map Prod.fst).take (i + 1)) := by
    rw [List.take_add_one, present, before]
    exact not_acceptedPrefix_of_stuck taken stuck
  refine ⟨i, by rw [there]; rfl, fun count => ⟨fun accepted => ?_, fun below => ?_⟩⟩
  · refine Nat.le_of_not_lt fun past => bad ?_
    exact accepted.of_prefix (List.take_prefix_take_left past)
  · exact good.of_prefix (List.take_prefix_take_left below)

/-- The offset at which compiling a format has to fail. -/
structure FailsAt (format : String) (offset : Nat) : Prop where
  within : offset ≤ format.length
  /-- A format without tokens fails at its first lexical fault. -/
  lexical : (∀ stream, Format.tokens format.toList ≠ .ok stream) →
    ∀ place, FirstFault format.toList place ↔ place = offset
  /-- A format with tokens fails at the first of them, or at the end of the input, such that no format
  which compiles starts with the tokens up to there. -/
  grammatical : ∀ stream, Format.tokens format.toList = .ok stream →
    ∃ i, (stream.toList[i]?).map Prod.snd = some offset ∧
      ∀ count, AcceptedPrefix ((stream.toList.map Prod.fst).take count) ↔ count ≤ i

/-- A format that does not compile has its error where it has to fail. -/
theorem compile_error_position {format : String} {error : FormatError}
    (failed : compile format = .error error) : FailsAt format error.fault.offset := by
  obtain ⟨fault, rfl, cause⟩ := compile_eq_error_iff.mp failed
  show FailsAt format fault.offset
  rcases cause with lexical | ⟨stream, scanned, faulty⟩
  · have first := scan_error_iff.mp ⟨fault, lexical, rfl⟩
    refine ⟨?_, fun _ place => ⟨fun other => ?_, fun same => same ▸ first⟩, fun stream scanned => ?_⟩
    · rw [← String.length_toList]
      exact Nat.le_of_lt first.offset_lt
    · obtain ⟨again, found, there⟩ := scan_error_iff.mpr other
      rw [lexical] at found
      cases found
      exact there.symm
    · rw [lexical] at scanned
      cases scanned
  · have position := position_of_readNodes scanned faulty
    refine ⟨?_, fun none => absurd scanned (none stream), fun other again => ?_⟩
    · obtain ⟨i, there, -⟩ := position
      obtain ⟨entry, member, place⟩ := Option.map_eq_some_iff.mp there
      rw [← String.length_toList, ← place]
      exact offset_le_of_tokens scanned (List.mem_of_getElem? member)
    · rw [scanned] at again
      cases again
      exact position

/-- The surplus sign of a format, and the blank of another one, which comes first although the sign
before it is no good either. -/
theorem compile_error_position_surplus :
    compile "<a>>" = .error ⟨⟨3, .node, .token .greater⟩, "<a>>"⟩ ∧ FailsAt "<a>>" 3 ∧
      compile ">< a" = .error ⟨⟨2, .token, .blank ' '⟩, ">< a"⟩ ∧ FailsAt ">< a" 2 := by
  have surplus : compile "<a>>" = .error ⟨⟨3, .node, .token .greater⟩, "<a>>"⟩ := rfl
  have blank : compile ">< a" = .error ⟨⟨2, .token, .blank ' '⟩, ">< a"⟩ := rfl
  exact ⟨surplus, compile_error_position surplus, blank, compile_error_position blank⟩

end XmlTemplate.Template
