import XmlTemplate.Format.Scan

/-!
# What scanning finds

A format either falls into signs, bare characters and quoted texts, or it has a first fault: a blank
or a backslash outside quotes, an escape without a meaning, or a text that is never closed. Scanning
gives tokens in the first case and fails at that fault in the second.

Results:
1. `scan_of_clean`: without a fault there are tokens.
2. `clean_or_firstFault`: a format is without a fault or has a first one.
3. `scan_error_iff`: scanning fails at the first fault, and only there.
-/

namespace XmlTemplate.Format

/-! ## Formats and their first fault -/

/-- Characters inside quotes and the text that they spell. -/
inductive Body : List Char → List Char → Prop
  | nil : Body [] []
  | plain {c : Char} {chars text : List Char} :
      c ≠ '"' → c ≠ '\\' → Body chars text → Body (c :: chars) (c :: text)
  | escape {escape c : Char} {chars text : List Char} :
      resolve? escape = some c → Body chars text → Body ('\\' :: escape :: chars) (c :: text)

/-- Signs, bare characters and quoted texts one after another. -/
inductive Clean : List Char → Prop
  | nil : Clean []
  | sign {c : Char} {token : Token} {chars : List Char} :
      Token.sign? c = some token → Clean chars → Clean (c :: chars)
  | bare {c : Char} {chars : List Char} : isBare c = true → Clean chars → Clean (c :: chars)
  | quoted {body text chars : List Char} :
      Body body text → Clean chars → Clean ('"' :: (body ++ '"' :: chars))

/-- The characters start with a fault, which is at a distance from their start. -/
inductive Faulty : List Char → Nat → Prop
  /-- A blank or a backslash outside quotes. -/
  | loose {c : Char} {rest : List Char} :
      c = '\\' ∨ Text.isBlank c = true → Faulty (c :: rest) 0
  /-- The backslash of an escape without a meaning. -/
  | escape {body text rest : List Char} {escape : Char} :
      Body body text → resolve? escape = none →
      Faulty ('"' :: (body ++ '\\' :: escape :: rest)) (1 + body.length)
  /-- The quote of a text that is not closed. -/
  | unclosed {body text : List Char} : Body body text → Faulty ('"' :: body) 0
  /-- The quote of a text whose last backslash has nothing after it. -/
  | unfinished {body text : List Char} : Body body text → Faulty ('"' :: (body ++ ['\\'])) 0

/-- The first fault of a format is at an offset: nothing before it is at fault. -/
def FirstFault (format : List Char) (offset : Nat) : Prop :=
  ∃ front rest distance, format = front ++ rest ∧ Clean front ∧ Faulty rest distance ∧
    offset = front.length + distance

/-! ## Characters -/

theorem isReserved_iff {c : Char} :
    isReserved c = true ↔ (∃ token, Token.sign? c = some token) ∨ c = '"' ∨ c = '\\' := by
  unfold Token.sign?
  split <;> simp_all [isReserved, reserved]

theorem not_isBlank_of_isReserved {c : Char} (sign : isReserved c = true) :
    Text.isBlank c = false := by
  simp only [isReserved, reserved, List.contains_iff_mem, List.mem_cons, List.not_mem_nil,
    or_false] at sign
  rcases sign with rfl | rfl | rfl | rfl | rfl | rfl | rfl | rfl | rfl | rfl | rfl | rfl <;> decide

theorem sign?_of_isBare {c : Char} (bare : isBare c = true) : Token.sign? c = none := by
  rw [isBare, Bool.and_eq_true, Bool.not_eq_true', Bool.not_eq_true'] at bare
  refine Option.eq_none_iff_forall_ne_some.mpr fun token sign => ?_
  simp [isReserved_iff.mpr (.inl ⟨token, sign⟩)] at bare

theorem isBare_of_not {c : Char} (sign : Token.sign? c = none) (quote : c ≠ '"')
    (backslash : c ≠ '\\') (blank : Text.isBlank c = false) : isBare c = true := by
  have plain : ¬ isReserved c = true := by
    rw [isReserved_iff]
    rintro (⟨token, found⟩ | rfl | rfl)
    · simp [sign] at found
    · exact quote rfl
    · exact backslash rfl
  simp [isBare, blank, plain]

theorem scan_sign {c : Char} {token : Token} (sign : Token.sign? c = some token) (offset : Nat)
    (chars : List Char) :
    scan offset (c :: chars) = (scan (offset + 1) chars).map (.next token offset) := by
  rw [scan, sign]

theorem scan_bare {c : Char} (bare : isBare c = true) (offset : Nat) (chars : List Char) :
    scan offset (c :: chars) = (scan (offset + 1) chars).map (.extend c offset) := by
  have sign := sign?_of_isBare bare
  have quote : c ≠ '"' := by rintro rfl; simp [isBare, isReserved, reserved] at bare
  have backslash : c ≠ '\\' := by rintro rfl; simp [isBare, isReserved, reserved] at bare
  have blank : Text.isBlank c = false := by
    rw [isBare, Bool.and_eq_true, Bool.not_eq_true'] at bare
    exact bare.1
  simp [scan, sign, quote, backslash, blank]

theorem scan_backslash (offset : Nat) (chars : List Char) :
    scan offset ('\\' :: chars) = .error ⟨offset, .token, .backslash⟩ := rfl

theorem scan_blank {c : Char} (blank : Text.isBlank c = true) (offset : Nat) (chars : List Char) :
    scan offset (c :: chars) = .error ⟨offset, .token, .blank c⟩ := by
  have plain : ¬ isReserved c = true := fun sign => by
    simp [not_isBlank_of_isReserved sign] at blank
  rw [isReserved_iff, not_or, not_or] at plain
  obtain ⟨sign, quote, backslash⟩ := plain
  have sign : Token.sign? c = none :=
    Option.eq_none_iff_forall_ne_some.mpr fun token found => sign ⟨token, found⟩
  rw [scan, sign]
  simp only [quote, backslash, blank, if_true, if_false]

theorem scanQuoted_plain {c : Char} (quote : c ≠ '"') (backslash : c ≠ '\\') (start offset : Nat)
    (seen chars : List Char) :
    scanQuoted start offset seen (c :: chars) = scanQuoted start (offset + 1) (c :: seen) chars := by
  rw [scanQuoted]
  · exact quote
  · rintro rfl
    exact absurd rfl backslash
  · rintro escape rest rfl
    exact absurd rfl backslash

theorem scanQuoted_escape {escape c : Char} (meaning : resolve? escape = some c)
    (start offset : Nat) (seen chars : List Char) :
    scanQuoted start offset seen ('\\' :: escape :: chars) =
      scanQuoted start (offset + 2) (c :: seen) chars := by
  rw [scanQuoted, meaning]

theorem scanQuoted_body {body text : List Char} (inside : Body body text) (start offset : Nat)
    (seen rest : List Char) :
    scanQuoted start offset seen (body ++ rest) =
      scanQuoted start (offset + body.length) (text.reverse ++ seen) rest := by
  induction inside generalizing offset seen with
  | nil => rfl
  | @plain c chars text quote backslash inside ih =>
    have place : offset + 1 + chars.length = offset + (c :: chars).length := by
      rw [List.length_cons, Nat.add_assoc, Nat.add_comm 1]
    rw [List.cons_append, scanQuoted_plain quote backslash, ih, place, List.reverse_cons,
      List.append_assoc]
    rfl
  | @escape escape c chars text meaning inside ih =>
    have place : offset + 2 + chars.length = offset + ('\\' :: escape :: chars).length := by
      rw [List.length_cons, List.length_cons, Nat.add_assoc, Nat.add_comm 2]
    rw [List.cons_append, List.cons_append, scanQuoted_escape meaning, ih, place, List.reverse_cons,
      List.append_assoc]
    rfl

theorem scan_quote (offset : Nat) (chars : List Char) :
    scan offset ('"' :: chars) = scanQuoted offset (offset + 1) [] chars := rfl

/-- A quoted text is one token. -/
theorem scan_quoted {body text : List Char} (inside : Body body text) (offset : Nat)
    (chars : List Char) :
    scan offset ('"' :: (body ++ '"' :: chars)) =
      (scan (offset + ('"' :: (body ++ ['"'])).length) chars).map
        (.next (.quoted (String.ofList text)) offset) := by
  have length : offset + ('"' :: (body ++ ['"'])).length = offset + 1 + body.length + 1 := by
    simp only [List.length_cons, List.length_append, List.length_nil]
    omega
  rw [scan_quote, scanQuoted_body inside, scanQuoted, length, List.append_nil, List.reverse_reverse]

/-! ## Faults -/

/-- What comes before a fault only adds its tokens. -/
theorem scan_append {front : List Char} (clean : Clean front) (offset : Nat) :
    ∃ add : Tokens → Tokens, ∀ rest,
      scan offset (front ++ rest) = (scan (offset + front.length) rest).map add := by
  induction clean generalizing offset with
  | nil =>
    refine ⟨id, fun rest => ?_⟩
    cases found : scan offset rest <;> simp [found, Except.map]
  | @sign c token chars sign clean ih =>
    obtain ⟨add, same⟩ := ih (offset + 1)
    refine ⟨fun tokens => .next token offset (add tokens), fun rest => ?_⟩
    rw [List.cons_append, scan_sign sign, same, List.length_cons, Nat.add_assoc, Nat.add_comm 1]
    cases scan (offset + (chars.length + 1)) rest <;> rfl
  | @bare c chars bare clean ih =>
    obtain ⟨add, same⟩ := ih (offset + 1)
    refine ⟨fun tokens => (add tokens).extend c offset, fun rest => ?_⟩
    rw [List.cons_append, scan_bare bare, same, List.length_cons, Nat.add_assoc, Nat.add_comm 1]
    cases scan (offset + (chars.length + 1)) rest <;> rfl
  | @quoted body text chars inside clean ih =>
    obtain ⟨add, same⟩ := ih (offset + ('"' :: (body ++ ['"'])).length)
    refine ⟨fun tokens => .next (.quoted (String.ofList text)) offset (add tokens), fun rest => ?_⟩
    have shape : '"' :: (body ++ '"' :: chars) ++ rest = '"' :: (body ++ '"' :: (chars ++ rest)) := by
      simp
    have length : offset + ('"' :: (body ++ '"' :: chars)).length =
        offset + ('"' :: (body ++ ['"'])).length + chars.length := by
      simp only [List.length_cons, List.length_append, List.length_nil]
      omega
    rw [shape, scan_quoted inside, same, length]
    cases scan (offset + ('"' :: (body ++ ['"'])).length + chars.length) rest <;> rfl

/-- Without a fault there are tokens. -/
theorem scan_of_clean {chars : List Char} (clean : Clean chars) (offset : Nat) :
    ∃ stream, scan offset chars = .ok stream := by
  obtain ⟨add, same⟩ := scan_append clean offset
  refine ⟨add (.done (offset + chars.length)), ?_⟩
  rw [← List.append_nil chars, same, List.append_nil, scan]
  rfl

theorem scan_faulty {chars : List Char} {distance : Nat} (faulty : Faulty chars distance)
    (offset : Nat) :
    ∃ fault, scan offset chars = .error fault ∧ fault.offset = offset + distance := by
  cases faulty with
  | loose what =>
    rcases what with rfl | blank
    · exact ⟨_, scan_backslash .., rfl⟩
    · exact ⟨_, scan_blank blank .., rfl⟩
  | @escape body text rest escape inside unknown =>
    refine ⟨⟨offset + 1 + body.length, .escape, .unknownEscape escape⟩, ?_, Nat.add_assoc ..⟩
    rw [scan_quote, scanQuoted_body inside, scanQuoted, unknown]
  | @unclosed body text inside =>
    refine ⟨⟨offset, .closingQuote, .endOfInput⟩, ?_, rfl⟩
    rw [scan_quote, ← List.append_nil body, scanQuoted_body inside, scanQuoted]
  | @unfinished body text inside =>
    refine ⟨⟨offset, .closingQuote, .endOfInput⟩, ?_, rfl⟩
    rw [scan_quote, scanQuoted_body inside, scanQuoted]

theorem scan_error_of_firstFault {format : List Char} {offset : Nat}
    (first : FirstFault format offset) :
    ∃ fault, tokens format = .error fault ∧ fault.offset = offset := by
  obtain ⟨front, rest, distance, rfl, clean, faulty, rfl⟩ := first
  obtain ⟨add, same⟩ := scan_append clean 0
  obtain ⟨fault, found, place⟩ := scan_faulty faulty (0 + front.length)
  refine ⟨fault, ?_, by rw [place, Nat.zero_add]⟩
  rw [tokens, same, found]
  rfl

/-- Inside quotes the characters end, or a quote, a last backslash or an escape without a meaning
follows. -/
theorem body_split (chars : List Char) :
    ∃ body text, Body body text ∧
      (chars = body ∨ chars = body ++ ['\\'] ∨ (∃ rest, chars = body ++ '"' :: rest) ∨
        ∃ escape rest, chars = body ++ '\\' :: escape :: rest ∧ resolve? escape = none) := by
  match chars with
  | [] => exact ⟨[], [], .nil, .inl rfl⟩
  | c :: rest =>
    by_cases quote : c = '"'
    · exact ⟨[], [], .nil, .inr (.inr (.inl ⟨rest, by rw [quote]; rfl⟩))⟩
    by_cases backslash : c = '\\'
    · rw [backslash]
      match rest with
      | [] => exact ⟨[], [], .nil, .inr (.inl rfl)⟩
      | escape :: rest =>
        cases meaning : resolve? escape with
        | none => exact ⟨[], [], .nil, .inr (.inr (.inr ⟨escape, rest, rfl, meaning⟩))⟩
        | some c =>
          obtain ⟨body, text, inside, ends⟩ := body_split rest
          exact ⟨_, _, .escape meaning inside, by simpa using ends⟩
    · obtain ⟨body, text, inside, ends⟩ := body_split rest
      exact ⟨_, _, .plain quote backslash inside, by simpa using ends⟩

theorem Clean.append {front chars : List Char} (first : Clean front) (second : Clean chars) :
    Clean (front ++ chars) := by
  induction first with
  | nil => exact second
  | sign sign first ih => exact .sign sign ih
  | bare bare first ih => exact .bare bare ih
  | @quoted body text middle inside first ih =>
    have more := Clean.quoted inside ih
    simpa using more

theorem FirstFault.append {front chars : List Char} {offset : Nat} (clean : Clean front)
    (first : FirstFault chars offset) : FirstFault (front ++ chars) (front.length + offset) := by
  obtain ⟨middle, rest, distance, rfl, before, faulty, rfl⟩ := first
  refine ⟨front ++ middle, rest, distance, by simp, clean.append before, faulty, ?_⟩
  rw [List.length_append, Nat.add_assoc]

/-- The rest of a format goes on after what is clean at its front. -/
theorem clean_or_firstFault_append {front chars : List Char} (clean : Clean front)
    (rest : Clean chars ∨ ∃ offset, FirstFault chars offset) :
    Clean (front ++ chars) ∨ ∃ offset, FirstFault (front ++ chars) offset := by
  rcases rest with others | ⟨offset, first⟩
  · exact .inl (clean.append others)
  · exact .inr ⟨_, first.append clean⟩

theorem clean_or_firstFault (format : List Char) :
    Clean format ∨ ∃ offset, FirstFault format offset := by
  have here {chars : List Char} {distance : Nat} (faulty : Faulty chars distance) :
      Clean chars ∨ ∃ offset, FirstFault chars offset :=
    .inr ⟨_, [], chars, distance, rfl, .nil, faulty, rfl⟩
  match format with
  | [] => exact .inl .nil
  | c :: chars =>
    cases sign : Token.sign? c with
    | some token =>
      exact clean_or_firstFault_append (.sign sign .nil) (clean_or_firstFault chars)
    | none =>
      by_cases backslash : c = '\\'
      · exact here (.loose (.inl backslash))
      cases blank : Text.isBlank c with
      | true => exact here (.loose (.inr blank))
      | false =>
        by_cases quote : c = '"'
        · -- the text is closed, or the quote or an escape after it is at fault
          obtain ⟨body, text, inside, ends⟩ := body_split chars
          rw [quote]
          rcases ends with rfl | rfl | ⟨rest, rfl⟩ | ⟨escape, rest, rfl, unknown⟩
          · exact here (.unclosed inside)
          · exact here (.unfinished inside)
          · have closed := Clean.quoted inside .nil
            have whole := clean_or_firstFault_append closed (clean_or_firstFault rest)
            simpa using whole
          · exact here (.escape inside unknown)
        · have bare := isBare_of_not sign quote backslash blank
          exact clean_or_firstFault_append (.bare bare .nil) (clean_or_firstFault chars)
termination_by format.length
decreasing_by
  all_goals subst_vars; simp <;> omega

/-- Scanning fails at the first fault of a format, and only there. -/
theorem scan_error_iff {format : List Char} {offset : Nat} :
    (∃ fault, tokens format = .error fault ∧ fault.offset = offset) ↔
      FirstFault format offset := by
  refine ⟨?_, scan_error_of_firstFault⟩
  rintro ⟨fault, found, rfl⟩
  rcases clean_or_firstFault format with clean | ⟨offset, first⟩
  · obtain ⟨stream, scanned⟩ := scan_of_clean clean 0
    rw [tokens, scanned] at found
    cases found
  · obtain ⟨other, again, place⟩ := scan_error_of_firstFault first
    rw [found] at again
    cases again
    exact place ▸ first

theorem clean_of_tokens {format : List Char} {stream : Tokens}
    (scanned : tokens format = .ok stream) : Clean format := by
  rcases clean_or_firstFault format with clean | ⟨offset, first⟩
  · exact clean
  · obtain ⟨fault, found, place⟩ := scan_error_of_firstFault first
    rw [scanned] at found
    cases found

/-- A fault lies within its format. -/
theorem FirstFault.offset_lt {format : List Char} {offset : Nat}
    (first : FirstFault format offset) : offset < format.length := by
  obtain ⟨front, rest, distance, rfl, clean, faulty, rfl⟩ := first
  have inside : distance < rest.length := by
    cases faulty <;> simp only [List.length_cons, List.length_append] <;> omega
  rw [List.length_append]
  omega

end XmlTemplate.Format
