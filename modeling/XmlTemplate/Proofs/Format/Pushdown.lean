import XmlTemplate.Proofs.Format.Stream

/-!
# A machine that follows the readers

The readers decide by one token at a time what comes next, so a stack of what is still to come says
all about the tokens read so far. The machine takes one token after another. A part that may be
missing is passed over by a token that it does not start with; a token that fits nothing stops the
machine. Every stack can be completed, so the machine stops at the first token that makes a format
impossible.

Results:
1. `verdict_eq_none_iff`: which streams are accepted.
2. `verdict_eq_some`: where and on which stack the machine stops.
3. `accepts_completion`: every stack is completed by a fixed sequence of tokens.
-/

namespace XmlTemplate.Format

/-- What may come any number of times. -/
inductive Item where
  /-- A segment with its dot. -/
  | dotted
  | pairing
  | nested
  | node
  deriving DecidableEq, Repr

/-- What is still to come. -/
inductive Pending where
  /-- The name of a segment, after its dot. -/
  | name
  | source
  | value
  | tag
  /-- What follows a star. -/
  | repeats
  | optionalValue
  | optionalRepeats
  /-- The children of an element. -/
  | body
  | many (item : Item)
  | greater
  | closeBrace
  deriving DecidableEq, Repr

/-- What a token means for what is to come. -/
inductive Move where
  /-- The token is taken, and this is to come instead. -/
  | push (parts : List Pending)
  /-- The token is for what comes later. -/
  | skip
  /-- The token fits nothing. -/
  | fail
  deriving DecidableEq, Repr

namespace Move

/-- More comes after what the token starts. -/
def andThen (more : Pending) : Move → Move
  | .push parts => .push (parts ++ [more])
  | .skip => .skip
  | .fail => .fail

/-- A part that has to come cannot be passed over. -/
def required : Move → Move
  | .push parts => .push parts
  | .skip | .fail => .fail

end Move

/-! ## Moves -/

/-- The token starts a source or is for later. -/
def moveSource : Token → Move
  | .question => .push [.many .dotted]
  | .dot => .push [.name, .many .dotted]
  | _ => .skip

/-- The token starts a value or is for later. -/
def moveValue : Token → Move
  | .bare _ | .quoted _ => .push []
  | token => moveSource token

/-- The token starts an element or a scope, which may be too deep inside others. -/
def moveNested (depth : Nat) : Token → Move
  | .less =>
    if depth < maxDepth then .push [.tag, .many .pairing, .body, .greater] else .fail
  | .openBrace => if depth < maxDepth then .push [.source, .many .node, .closeBrace] else .fail
  | _ => .skip

/-- The token starts an item or is for later. -/
def Item.move (depth : Nat) : Item → Token → Move
  | .dotted, .dot => .push [.name]
  | .pairing, .equals => .push [.value, .optionalValue]
  | .nested, token => moveNested depth token
  | .node, .ampersand => .push [.value]
  | .node, token => moveNested depth token
  | _, _ => .skip

/-- What a token means for a part at a depth. -/
def Pending.move (depth : Nat) : Pending → Token → Move
  | .name, .bare _ | .name, .quoted _ => .push []
  | .name, _ => .fail
  | .source, token => (moveSource token).required
  | .value, token => (moveValue token).required
  | .tag, .tilde => .push [.source]
  | .tag, token => ((moveValue token).andThen .optionalRepeats).required
  | .repeats, .bare word =>
    if isDigits word = true ∧ Decimal.ofDigits word.toList < Decimal.wordBound then .push []
    else .fail
  | .repeats, token => (moveSource token).required
  | .optionalValue, token => moveValue token
  | .optionalRepeats, .star => .push [.repeats]
  | .optionalRepeats, _ => .skip
  | .body, .ampersand => .push [.value]
  | .body, token => (moveNested depth token).andThen (.many .nested)
  | .many item, token => (item.move depth token).andThen (.many item)
  | .greater, .greater => .push []
  | .greater, _ => .fail
  | .closeBrace, .closeBrace => .push []
  | .closeBrace, _ => .fail

/-- The part may be missing. -/
def Pending.optional : Pending → Bool
  | .optionalValue | .optionalRepeats | .body | .many _ => true
  | _ => false

/-! ## Steps -/

/-- The part closes an element or a scope. -/
def Pending.closes : Pending → Bool
  | .greater | .closeBrace => true
  | _ => false

/-- The number of elements and scopes that are open. -/
def depthOf (stack : List Pending) : Nat := stack.countP Pending.closes

/-- One token is taken. -/
def step : List Pending → Token → Option (List Pending)
  | [], _ => none
  | part :: stack, token =>
    match part.move (depthOf stack) token with
    | .push parts => some (parts ++ stack)
    | .skip => step stack token
    | .fail => none

/-- Tokens are taken one after another. -/
def advance : List Pending → List Token → Option (List Pending)
  | stack, [] => some stack
  | stack, token :: tokens =>
    match step stack token with
    | some next => advance next tokens
    | none => none

/-- The offset at which the machine stops, if it does: at a token that fits nothing, or at the end of
the input if something is missing. -/
def verdict : List Pending → Tokens → Option Nat
  | stack, .done offset => if stack.all Pending.optional then none else some offset
  | stack, .next token offset rest =>
    match step stack token with
    | some next => verdict next rest
    | none => some offset

/-- The sequence is accepted. -/
def Accepts (stack : List Pending) (sequence : List Token) : Prop :=
  ∃ last, advance stack sequence = some last ∧ last.all Pending.optional = true

theorem advance_append (stack : List Pending) (front back : List Token) :
    advance stack (front ++ back) = (advance stack front).bind fun next => advance next back := by
  induction front generalizing stack with
  | nil => rfl
  | cons token front ih =>
    simp only [List.cons_append, advance]
    cases step stack token with
    | none => rfl
    | some next => exact ih next

theorem verdict_eq_none_iff {stack : List Pending} {tokens : Tokens} :
    verdict stack tokens = none ↔ Accepts stack tokens.sequence := by
  induction tokens generalizing stack with
  | done offset => simp [verdict, Accepts, Tokens.sequence, advance]
  | next token offset rest ih =>
    rw [verdict]
    cases found : step stack token with
    | none => simp [Accepts, Tokens.sequence, advance, found]
    | some next => simp [Accepts, Tokens.sequence, advance, found, ih]

/-- Where the machine stops, the tokens before were taken, and the token is not, or something is
missing at the end. -/
theorem verdict_eq_some {stack : List Pending} {tokens : Tokens} {offset : Nat}
    (stops : verdict stack tokens = some offset) :
    ∃ i token? last, tokens.toList[i]? = some (token?, offset) ∧ i ≤ tokens.sequence.length ∧
      advance stack (tokens.sequence.take i) = some last ∧
        match token? with
        | some token => step last token = none
        | none => last.all Pending.optional = false := by
  induction tokens generalizing stack with
  | done place =>
    rw [verdict] at stops
    split at stops
    · cases stops
    · cases stops
      exact ⟨0, none, stack, rfl, Nat.le_refl _, rfl, Bool.eq_false_iff.mpr ‹_›⟩
  | next token place rest ih =>
    rw [verdict] at stops
    cases found : step stack token with
    | none =>
      rw [found] at stops
      cases stops
      exact ⟨0, some token, stack, rfl, Nat.zero_le _, rfl, found⟩
    | some next =>
      rw [found] at stops
      obtain ⟨i, token?, last, there, short, taken, stuck⟩ := ih stops
      refine ⟨i + 1, token?, last, there, Nat.succ_le_succ short, ?_, stuck⟩
      simpa [Tokens.sequence, advance, found] using taken

/-! ## Completion -/

/-- A token that completes a part. For the others nothing is needed. -/
def Pending.filler? : Pending → Option Token
  | .name => some (.quoted "")
  | .source | .value | .tag | .repeats | .optionalValue => some .question
  | .greater => some .greater
  | .closeBrace => some .closeBrace
  | .optionalRepeats | .body | .many _ => none

/-- The tokens that complete a stack. -/
def completion (stack : List Pending) : List Token := stack.filterMap Pending.filler?

/-- A part that needs no token is passed over by the tokens that complete others. -/
theorem move_filler {part other : Pending} {token : Token} (depth : Nat)
    (quiet : part.filler? = none) (fills : other.filler? = some token) :
    part.move depth token = .skip := by
  cases other <;> cases fills <;>
  · cases part with
    | many item => cases item <;> rfl
    | body | optionalRepeats => rfl
    | _ => cases quiet

theorem optional_of_quiet {part : Pending} (quiet : part.filler? = none) :
    part.optional = true := by
  cases part <;> first | rfl | cases quiet

/-- A part takes the token that completes it, and nothing that is needed comes instead. -/
theorem move_own {part : Pending} {token : Token} (depth : Nat)
    (fills : part.filler? = some token) :
    ∃ parts, part.move depth token = .push parts ∧ ∀ other ∈ parts, other.filler? = none := by
  cases part <;> cases fills <;> exact ⟨_, rfl, by simp [Pending.filler?]⟩

theorem step_quiet {quiet stack : List Pending} {part : Pending} {token : Token}
    (passes : ∀ other ∈ quiet, other.filler? = none) (fills : part.filler? = some token) :
    step (quiet ++ part :: stack) token = step (part :: stack) token := by
  induction quiet with
  | nil => rfl
  | cons first quiet ih =>
    rw [List.cons_append, step, move_filler _ (passes first (by simp)) fills]
    exact ih fun other member => passes other (by simp [member])

/-- Parts that need nothing may stand in front. -/
theorem accepts_completion (quiet stack : List Pending)
    (passes : ∀ other ∈ quiet, other.filler? = none) :
    Accepts (quiet ++ stack) (completion stack) := by
  induction stack generalizing quiet with
  | nil =>
    refine ⟨quiet, by simp [completion, advance], ?_⟩
    simpa using fun other member => optional_of_quiet (passes other member)
  | cons part stack ih =>
    cases fills : part.filler? with
    | none =>
      -- the part is passed over by the tokens that complete what is below it
      have more := ih (quiet ++ [part]) (by simpa [or_imp, forall_and] using ⟨passes, fills⟩)
      simpa [completion, fills] using more
    | some token =>
      -- the part takes its token and leaves parts that need nothing
      obtain ⟨parts, pushed, silent⟩ := move_own (depthOf stack) fills
      obtain ⟨last, taken, complete⟩ := ih parts silent
      refine ⟨last, ?_, complete⟩
      rw [completion, List.filterMap_cons_some fills, advance, step_quiet passes fills, step, pushed]
      exact taken

end XmlTemplate.Format
