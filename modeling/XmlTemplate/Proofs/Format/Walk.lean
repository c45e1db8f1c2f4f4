import XmlTemplate.Proofs.Format.Tiling

/-!
# Scanning by position

Scanning can go by the position in the format: one call takes the token at the position and moves past
it, and calls follow one another up to the end. Nothing in this form says that its loops end, so a
computation has no value if one of them goes on forever. None does, and the tokens are those of a format.

Results:
1. `nextToken_spec`: a call fails, or it takes a token and moves on, not past the end.
2. `scanAll_eq`: the calls end, with the tokens of the format or its fault.
-/

namespace XmlTemplate

/-- A format is its characters. -/
abbrev Format := List Char

namespace Format

/-! ## Computations that move -/

/-- A computation that moves a place and may fail where it is. It has no value if it never ends. -/
abbrev Walk (σ α : Type) := ExceptT Fault (StateT σ Option) α

section
variable {σ α β : Type} {walk : Walk σ α} {next : α → Walk σ β} {s t : σ}

theorem Walk.bind_ok {x : α} (first : walk s = some (.ok x, t)) : (walk >>= next) s = next x t := by
  change (walk s).bind _ = _
  rw [first]
  rfl

theorem Walk.bind_error {fault : Fault} (first : walk s = some (.error fault, t)) :
    (walk >>= next) s = some (.error fault, t) := by
  change (walk s).bind _ = _
  rw [first]
  rfl
end

/-! ## Calls -/

/-- Tokens in a list, with their offsets. The end of the input stands last. -/
abbrev Listing := List (Option Token × Nat)

/-- The position moves past bare characters. -/
def skipBare (format : Format) : Walk Nat Unit := do
  let pos ← get
  match format[pos]? with
  | some c =>
    if isBare c then do
      set (pos + 1)
      format |>.skipBare
    else return ()
  | none => return ()
partial_fixpoint

/-- The bare word at the position. -/
def takeBare (format : Format) : Walk Nat Token := do
  let start ← get
  format |>.skipBare
  let stop ← get
  return .bare (String.ofList ((format.drop start).take (stop - start)))

/-- A text that was opened at `start` and has the characters `seen` so far, up to its closing quote. -/
def takeRest (format : Format) (start : Nat) (seen : List Char) : Walk Nat Token := do
  let pos ← get
  match format[pos]? with
  | none => throw ⟨start, .closingQuote, .endOfInput⟩
  | some c =>
    if c = '"' then do
      set (pos + 1)
      return .quoted (String.ofList seen)
    else if c = '\\' then
      match format[pos + 1]? with
      | none => throw ⟨start, .closingQuote, .endOfInput⟩
      | some escape =>
        match resolve? escape with
        | none => throw ⟨pos, .escape, .unknownEscape escape⟩
        | some c => do
          set (pos + 2)
          format |>.takeRest start (seen ++ [c])
    else do
      set (pos + 1)
      format |>.takeRest start (seen ++ [c])
partial_fixpoint

/-- The token at the position, if it is not at the end. -/
def nextToken (format : Format) : Walk Nat (Option Token) := do
  let pos ← get
  match format[pos]? with
  | none => return none
  | some c =>
    match Token.sign? c with
    | some token => do
      set (pos + 1)
      return some token
    | none =>
      if c = '"' then do
        set (pos + 1)
        return some (← format |>.takeRest pos [])
      else if c = '\\' then throw ⟨pos, .token, .backslash⟩
      else if Text.isBlank c then throw ⟨pos, .token, .blank c⟩
      else return some (← format |>.takeBare)

/-- The tokens from the position on with their offsets. -/
def scanAll (format : Format) : Walk Nat Listing := do
  let pos ← get
  match ← format |>.nextToken with
  | none => return [(none, pos)]
  | some token => do
    let others ← format |>.scanAll
    return (some token, pos) :: others
partial_fixpoint

/-! ## Positions -/

section
variable {α : Type} {xs rest : List α} {pos : Nat}

theorem getElem?_of_drop_nil (here : xs.drop pos = []) : xs[pos]? = none := by
  rw [← List.head?_drop, here]
  rfl

theorem getElem?_of_drop {x : α} (here : xs.drop pos = x :: rest) : xs[pos]? = some x := by
  rw [← List.head?_drop, here]
  rfl

theorem drop_succ_of_drop {x : α} (here : xs.drop pos = x :: rest) : xs.drop (pos + 1) = rest := by
  rw [← List.drop_drop, here]
  rfl

theorem drop_add_of_drop {front : List α} (here : xs.drop pos = front ++ rest) :
    xs.drop (pos + front.length) = rest := by
  rw [← List.drop_drop, here, List.drop_left]
end

/-! ## Bare words -/

section
variable {format : List Char} {pos : Nat}

theorem skipBare_eq {word rest : List Char} (here : format.drop pos = word ++ rest)
    (bare : ∀ c ∈ word, isBare c = true) (stops : ∀ c ∈ rest.head?, isBare c = false) :
    skipBare format pos = some (.ok (), pos + word.length) := by
  rw [skipBare.eq_1]
  refine (Walk.bind_ok rfl).trans ?_
  induction word generalizing pos with
  | nil =>
    cases rest with
    | nil =>
      rw [getElem?_of_drop_nil here]
      rfl
    | cons c rest =>
      rw [getElem?_of_drop here]
      simp only [stops c rfl]
      rfl
  | cons c word ih =>
    have more := ih (drop_succ_of_drop here) fun c member => bare c (by simp [member])
    rw [getElem?_of_drop here]
    simp only [bare c (by simp), if_true]
    refine (Walk.bind_ok rfl).trans ?_
    rw [skipBare.eq_1]
    refine (Walk.bind_ok rfl).trans ?_
    rw [more, List.length_cons, Nat.add_assoc, Nat.add_comm 1]

theorem takeBare_eq {word rest : List Char} (here : format.drop pos = word ++ rest)
    (bare : ∀ c ∈ word, isBare c = true) (stops : ∀ c ∈ rest.head?, isBare c = false) :
    takeBare format pos = some (.ok (.bare (String.ofList word)), pos + word.length) := by
  refine (Walk.bind_ok rfl).trans ?_
  refine (Walk.bind_ok (skipBare_eq here bare stops)).trans ?_
  refine (Walk.bind_ok rfl).trans ?_
  rw [here, Nat.add_sub_cancel_left, List.take_left]
  rfl

/-! ## Quoted texts -/

section
variable {rest : List Char} (start : Nat) (seen : List Char)

theorem takeRest_nil (here : format.drop pos = []) :
    takeRest format start seen pos = some (.error ⟨start, .closingQuote, .endOfInput⟩, pos) := by
  rw [takeRest.eq_1]
  refine (Walk.bind_ok rfl).trans ?_
  rw [getElem?_of_drop_nil here]
  rfl

theorem takeRest_quote (here : format.drop pos = '"' :: rest) :
    takeRest format start seen pos = some (.ok (.quoted (String.ofList seen)), pos + 1) := by
  rw [takeRest.eq_1]
  refine (Walk.bind_ok rfl).trans ?_
  rw [getElem?_of_drop here]
  rfl

theorem takeRest_plain {c : Char} (quote : c ≠ '"') (backslash : c ≠ '\\')
    (here : format.drop pos = c :: rest) :
    takeRest format start seen pos = takeRest format start (seen ++ [c]) (pos + 1) := by
  rw [takeRest.eq_1]
  refine (Walk.bind_ok rfl).trans ?_
  rw [getElem?_of_drop here]
  simp only [quote, backslash, if_false]
  exact Walk.bind_ok rfl

theorem takeRest_backslash (here : format.drop pos = ['\\']) :
    takeRest format start seen pos = some (.error ⟨start, .closingQuote, .endOfInput⟩, pos) := by
  rw [takeRest.eq_1]
  refine (Walk.bind_ok rfl).trans ?_
  rw [getElem?_of_drop here, getElem?_of_drop_nil (drop_succ_of_drop here)]
  rfl

theorem takeRest_escape {escape c : Char} (meaning : resolve? escape = some c)
    (here : format.drop pos = '\\' :: escape :: rest) :
    takeRest format start seen pos = takeRest format start (seen ++ [c]) (pos + 2) := by
  rw [takeRest.eq_1]
  refine (Walk.bind_ok rfl).trans ?_
  rw [getElem?_of_drop here, getElem?_of_drop (drop_succ_of_drop here)]
  simp only [meaning]
  exact Walk.bind_ok rfl

theorem takeRest_unknown {escape : Char} (unknown : resolve? escape = none)
    (here : format.drop pos = '\\' :: escape :: rest) :
    takeRest format start seen pos = some (.error ⟨pos, .escape, .unknownEscape escape⟩, pos) := by
  rw [takeRest.eq_1]
  refine (Walk.bind_ok rfl).trans ?_
  rw [getElem?_of_drop here, getElem?_of_drop (drop_succ_of_drop here)]
  simp only [unknown]
  rfl

/-- The position moves past characters inside quotes, which add the text that they spell. -/
theorem takeRest_body {body text : List Char} (inside : Body body text)
    (here : format.drop pos = body ++ rest) :
    takeRest format start seen pos = takeRest format start (seen ++ text) (pos + body.length) := by
  induction inside generalizing pos seen with
  | nil =>
    rw [List.append_nil]
    rfl
  | @plain c chars text quote backslash inside ih =>
    rw [takeRest_plain start seen quote backslash here, ih _ (drop_succ_of_drop here),
      List.append_assoc, List.length_cons, Nat.add_assoc, Nat.add_comm 1]
    rfl
  | @escape escape c chars text meaning inside ih =>
    have place : pos + 2 + chars.length = pos + ('\\' :: escape :: chars).length := by
      rw [List.length_cons, List.length_cons, Nat.add_assoc, Nat.add_comm 2]
    rw [takeRest_escape start seen meaning here, ih _ (drop_succ_of_drop (drop_succ_of_drop here)),
      List.append_assoc, place]
    rfl
end

/-! ## One call -/

/-- What a call does at a position: it fails where scanning from there fails, it gives nothing at the
end, or it takes the token with which scanning starts and moves to the characters after it. -/
inductive Called (format : List Char) (pos : Nat) : Except Fault (Option Token) → Nat → Prop
  | fault {fault : Fault} {next : Nat} :
      scan pos (format.drop pos) = .error fault → Called format pos (.error fault) next
  | ends : format.length ≤ pos → Called format pos (.ok none) pos
  | token {token : Token} {next : Nat} :
      pos < next → next ≤ format.length →
      scan pos (format.drop pos) = (scan next (format.drop next)).map (.next token pos) →
      Called format pos (.ok (some token)) next

theorem Called.of_spelling {token : Token} {spelling rest : List Char} (present : spelling ≠ [])
    (here : format.drop pos = spelling ++ rest)
    (taken : scan pos (spelling ++ rest) =
      (scan (pos + spelling.length) rest).map (.next token pos)) :
    Called format pos (.ok (some token)) (pos + spelling.length) := by
  have longer := List.length_pos_iff.mpr present
  have length := congrArg List.length here
  rw [List.length_drop, List.length_append] at length
  refine .token (by omega) (by omega) ?_
  rw [drop_add_of_drop here, here, taken]

/-- A text in quotes is taken as a whole. -/
theorem takeRest_spec {chars : List Char} (here : format.drop pos = '"' :: chars) :
    ∃ outcome next, takeRest format pos [] (pos + 1) = some (outcome, next) ∧
      Called format pos (outcome.map some) next := by
  obtain ⟨body, text, inside, ends⟩ := body_split chars
  have after := drop_succ_of_drop here
  rcases ends with rfl | rfl | ⟨rest, rfl⟩ | ⟨escape, rest, rfl, unknown⟩
  · have moved := takeRest_body pos [] inside (after.trans (List.append_nil chars).symm)
    have last := drop_add_of_drop (after.trans (List.append_nil chars).symm)
    refine ⟨_, _, moved.trans (takeRest_nil pos _ last), .fault ?_⟩
    rw [here, scan_quote, ← List.append_nil chars, scanQuoted_body inside, scanQuoted]
  · refine ⟨_, _, (takeRest_body pos [] inside after).trans
      (takeRest_backslash pos _ (drop_add_of_drop after)), .fault ?_⟩
    rw [here, scan_quote, scanQuoted_body inside, scanQuoted]
  · refine ⟨_, _, (takeRest_body pos [] inside after).trans
      (takeRest_quote pos _ (drop_add_of_drop after)), ?_⟩
    have shape : '"' :: (body ++ '"' :: rest) = ('"' :: (body ++ ['"'])) ++ rest := by simp
    have length : pos + 1 + body.length + 1 = pos + ('"' :: (body ++ ['"'])).length := by
      simp only [List.length_cons, List.length_append, List.length_nil]
      omega
    rw [length]
    refine .of_spelling (by simp) (here.trans shape) ?_
    rw [← shape]
    exact scan_quoted inside pos rest
  · refine ⟨_, _, (takeRest_body pos [] inside after).trans
      (takeRest_unknown pos _ unknown (drop_add_of_drop after)), .fault ?_⟩
    rw [here, scan_quote, scanQuoted_body inside, scanQuoted, unknown]

theorem clean_of_scan {chars : List Char} {offset : Nat} {stream : Tokens}
    (scanned : scan offset chars = .ok stream) : Clean chars := by
  rcases clean_or_firstFault chars with clean | ⟨place, front, rest, distance, rfl, clean, faulty, -⟩
  · exact clean
  · obtain ⟨add, same⟩ := scan_append clean offset
    obtain ⟨fault, failed, -⟩ := scan_faulty faulty (offset + front.length)
    rw [same, failed] at scanned
    cases scanned

theorem clean_of_bare {word : List Char} (bare : ∀ c ∈ word, isBare c = true) : Clean word := by
  induction word with
  | nil => exact .nil
  | cons c word ih => exact .bare (bare c (by simp)) (ih fun c member => bare c (by simp [member]))

/-- Characters of which the first is not bare have no bare word as their first token. -/
theorem first?_of_scan {chars : List Char} (stops : ∀ c ∈ chars.head?, isBare c = false)
    {offset : Nat} {stream : Tokens} (scanned : scan offset chars = .ok stream) (word : String) :
    stream.first? ≠ some (.bare word) := by
  intro starts
  have covers := covers_of_scan (clean_of_scan scanned) scanned
  cases covers with
  | done => cases starts
  | @next _ token spelling chars rest spells apart covers =>
    cases starts
    obtain ⟨rfl, present, bare⟩ := spells
    cases spelled : word.toList with
    | nil => exact present spelled
    | cons c others =>
      have first := stops c (by simp [spelled])
      rw [bare c (by simp [spelled])] at first
      cases first

/-- A longest run of bare characters is one token. -/
theorem scan_run {word rest : List Char} (present : word ≠ []) (bare : ∀ c ∈ word, isBare c = true)
    (stops : ∀ c ∈ rest.head?, isBare c = false) (offset : Nat) :
    scan offset (word ++ rest) =
      (scan (offset + word.length) rest).map (.next (.bare (String.ofList word)) offset) := by
  cases scanned : scan (offset + word.length) rest with
  | ok stream => exact scan_word present bare (first?_of_scan stops scanned) scanned
  | error fault =>
    obtain ⟨add, same⟩ := scan_append (clean_of_bare bare) offset
    rw [same, scanned]
    rfl

theorem nextToken_spec (format : List Char) (pos : Nat) :
    ∃ outcome next, nextToken format pos = some (outcome, next) ∧ Called format pos outcome next := by
  cases here : format.drop pos with
  | nil =>
    refine ⟨.ok none, pos, (Walk.bind_ok rfl).trans ?_, .ends (List.drop_eq_nil_iff.mp here)⟩
    rw [getElem?_of_drop_nil here]
    rfl
  | cons c chars =>
    cases sign : Token.sign? c with
    | some token =>
      refine ⟨.ok (some token), pos + 1, (Walk.bind_ok rfl).trans ?_,
        .of_spelling (List.cons_ne_nil c []) here (scan_sign sign pos chars)⟩
      rw [getElem?_of_drop here]
      simp only [sign]
      rfl
    | none =>
      by_cases quote : c = '"'
      · subst quote
        obtain ⟨outcome, next, taken, called⟩ := takeRest_spec here
        refine ⟨outcome.map some, next, (Walk.bind_ok rfl).trans ?_, called⟩
        rw [getElem?_of_drop here]
        simp only [sign, if_true]
        refine (Walk.bind_ok rfl).trans ?_
        cases outcome with
        | error fault => exact Walk.bind_error taken
        | ok token => exact Walk.bind_ok taken
      by_cases backslash : c = '\\'
      · subst backslash
        refine ⟨.error ⟨pos, .token, .backslash⟩, pos, (Walk.bind_ok rfl).trans ?_,
          .fault (by rw [here, scan_backslash])⟩
        rw [getElem?_of_drop here]
        rfl
      cases blank : Text.isBlank c with
      | true =>
        refine ⟨.error ⟨pos, .token, .blank c⟩, pos, (Walk.bind_ok rfl).trans ?_,
          .fault (by rw [here, scan_blank blank])⟩
        rw [getElem?_of_drop here]
        simp only [sign, quote, backslash, blank, if_true, if_false]
        rfl
      | false =>
        -- what is neither a sign nor a quote, backslash or blank is bare, so the word is not empty
        have bare := isBare_of_not sign quote backslash blank
        let word := (c :: chars).takeWhile isBare
        let rest := (c :: chars).dropWhile isBare
        have shape : format.drop pos = word ++ rest :=
          here.trans List.takeWhile_append_dropWhile.symm
        have present : word ≠ [] := by simp [word, bare]
        have all : ∀ c ∈ word, isBare c = true := List.all_eq_true.mp List.all_takeWhile
        have stops : ∀ c ∈ rest.head?, isBare c = false := by
          intro next first
          have stopped := List.head?_dropWhile_not isBare (c :: chars)
          rwa [Option.mem_def.mp first] at stopped
        refine ⟨.ok (some (.bare (String.ofList word))), pos + word.length,
          (Walk.bind_ok rfl).trans ?_, .of_spelling present shape (scan_run present all stops pos)⟩
        rw [getElem?_of_drop here]
        simp only [sign, quote, backslash, blank, if_false]
        exact Walk.bind_ok (takeBare_eq shape all stops)

/-- The calls from a position on end. They give the tokens from there on, or fail with their fault. -/
theorem scanAll_eq (format : List Char) (pos : Nat) :
    ∃ next, scanAll format pos = some ((scan pos (format.drop pos)).map Tokens.toList, next) := by
  obtain ⟨outcome, next, taken, called⟩ := nextToken_spec format pos
  rw [scanAll.eq_1]
  cases called with
  | fault failed =>
    refine ⟨next, (Walk.bind_ok rfl).trans ((Walk.bind_error taken).trans ?_)⟩
    rw [failed]
    rfl
  | ends last =>
    refine ⟨pos, (Walk.bind_ok rfl).trans ((Walk.bind_ok taken).trans ?_)⟩
    rw [List.drop_eq_nil_iff.mpr last]
    rfl
  | @token token next further within scanned =>
    -- the calls after this one have fewer characters before them
    obtain ⟨final, others⟩ := scanAll_eq format next
    refine ⟨final, (Walk.bind_ok rfl).trans ((Walk.bind_ok taken).trans ?_)⟩
    rw [scanned]
    cases rest : scan next (format.drop next) with
    | error fault =>
      rw [rest] at others
      exact Walk.bind_error others
    | ok stream =>
      rw [rest] at others
      exact Walk.bind_ok others
termination_by format.length - pos

end

end Format

end XmlTemplate
