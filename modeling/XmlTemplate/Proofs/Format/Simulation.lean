import XmlTemplate.Proofs.Format.Pushdown
import XmlTemplate.Proofs.Format.Soundness

/-!
# The readers and the machine

A reader does what the machine does with the parts that the reader is for, on any stack below them:
where it succeeds the machine has come to the same tokens with these parts gone, and where it fails
the machine stops at the offset of the fault. The levels that are left are the ones that the stack
does not use.

Results:
1. `agrees_readExpr`, `agrees_readTag`, `agrees_readAttribute`: the parts of an element.
2. `agrees_readMany`: items one after another.
3. `agrees_readNested`: elements and scopes.
4. `verdict_of_readNodes_ok`, `verdict_of_readNodes_error`: whole documents.
-/

namespace XmlTemplate.Format

/-! ## Agreement -/

/-- The machine comes to the tokens that are left, or stops at the offset of the fault. -/
def Agrees {α : Type} (result : Except Fault (α × Tokens)) (stack : List Pending)
    (outcome : Option Nat) : Prop :=
  match result with
  | .ok both => outcome = verdict stack both.2
  | .error fault => outcome = some fault.offset

section
variable {α β : Type} {stack : List Pending}

theorem Agrees.bind {first : Except Fault (α × Tokens)}
    {next : α × Tokens → Except Fault (β × Tokens)} {below : List Pending} {outcome : Option Nat}
    (start : Agrees first below outcome)
    (go : ∀ x rest, first = .ok (x, rest) → Agrees (next (x, rest)) stack (verdict below rest)) :
    Agrees (first >>= next) stack outcome := by
  cases first with
  | error fault => exact start
  | ok both =>
    rw [show outcome = verdict below both.2 from start]
    exact go both.1 both.2 rfl

/-- A last step that only builds a result. -/
theorem Agrees.map {first : Except Fault (α × Tokens)} {outcome : Option Nat}
    (start : Agrees first stack outcome) (f : α → β) :
    Agrees (first >>= fun both => pure (f both.1, both.2)) stack outcome :=
  start.bind fun _ _ _ => rfl
end

variable {stack : List Pending} {part : Pending} {token : Token} {offset : Nat} {rest : Tokens}

theorem verdict_push {parts : List Pending}
    (taken : part.move (depthOf stack) token = .push parts) :
    verdict (part :: stack) (.next token offset rest) = verdict (parts ++ stack) rest := by
  rw [verdict, step, taken]

theorem verdict_fail (stuck : part.move (depthOf stack) token = .fail) :
    verdict (part :: stack) (.next token offset rest) = some offset := by
  rw [verdict, step, stuck]

theorem verdict_skip (passed : part.move (depthOf stack) token = .skip) :
    verdict (part :: stack) (.next token offset rest) = verdict stack (.next token offset rest) := by
  rw [verdict, step, passed, verdict]

/-- A part that may be missing is missing if the next token is for later. -/
theorem verdict_optional {tokens : Tokens} (optional : part.optional = true)
    (passes : ∀ token offset rest, tokens = .next token offset rest →
      part.move (depthOf stack) token = .skip) :
    verdict (part :: stack) tokens = verdict stack tokens := by
  cases tokens with
  | done offset => simp [verdict, optional]
  | next token offset rest => exact verdict_skip (passes token offset rest rfl)

/-- A part that has to come is missing at the end of the input. -/
theorem verdict_done (missing : part.optional = false) :
    verdict (part :: stack) (.done offset) = some offset := by
  simp [verdict, missing]

/-! ## Values -/

theorem agrees_readSteps (tokens : Tokens) (stack : List Pending) :
    Agrees (readSteps tokens) stack (verdict (.many .dotted :: stack) tokens) := by
  fun_induction readSteps tokens with
  | case1 dotAt word wordAt after ih => exact ih.map _
  | case2 dotAt text textAt after ih => exact ih.map _
  | case3 dotAt after bare quoted =>
    show verdict (.name :: .many .dotted :: stack) after = some after.offset
    cases after with
    | done offset => rfl
    | next token offset rest =>
      cases token with
      | bare word => exact absurd rfl (bare word offset rest)
      | quoted text => exact absurd rfl (quoted text offset rest)
      | _ => rfl
  | case4 tokens bare quoted dot =>
    refine verdict_optional rfl ?_
    rintro token offset rest rfl
    cases token with
    | dot => exact absurd rfl (dot offset rest)
    | _ => rfl

/-- A source or a value that has to come: the expression that is read. -/
theorem agrees_readExpr (expected : Expectation) (tokens : Tokens) (stack : List Pending) :
    Agrees (readExpr expected tokens) stack (verdict (.value :: stack) tokens) := by
  cases tokens with
  | done offset => exact verdict_done rfl
  | next token offset rest =>
    cases token with
    | question => exact (agrees_readSteps rest stack).map _
    | dot => exact (agrees_readSteps (.next .dot offset rest) stack).map _
    | _ => rfl

theorem agrees_readSource (expected : Expectation) (tokens : Tokens) (stack : List Pending) :
    Agrees (readSource expected tokens) stack (verdict (.source :: stack) tokens) := by
  cases tokens with
  | done offset => exact verdict_done rfl
  | next token offset rest =>
    cases token with
    | question => exact agrees_readExpr expected (.next .question offset rest) stack
    | dot => exact agrees_readExpr expected (.next .dot offset rest) stack
    | _ => rfl

/-! ## Parts of an element -/

theorem agrees_readRepetition (tokens : Tokens) (stack : List Pending) :
    Agrees (readRepetition tokens) stack (verdict (.repeats :: stack) tokens) := by
  cases tokens with
  | done offset => exact verdict_done rfl
  | next token offset rest =>
    cases token with
    | bare word =>
      cases digits : isDigits word with
      | false =>
        have stuck : Decimal.digits? word.toList = none := by
          refine Option.eq_none_iff_forall_ne_some.mpr fun count found => ?_
          simp [(digits?_eq_some_iff.mp found).1] at digits
        rw [readRepetition, stuck, verdict_fail (by simp [Pending.move, digits])]
        rfl
      | true =>
        rw [readRepetition, digits?_eq_some_iff.mpr ⟨digits, rfl⟩]
        by_cases small : Decimal.ofDigits word.toList < Decimal.wordBound
        · have taken : Pending.move (depthOf stack) .repeats (.bare word) = .push [] := by
            simp [Pending.move, digits, small]
          rw [verdict_push taken]
          simp [small, Agrees]
        · rw [verdict_fail (by simp [Pending.move, small])]
          simp [small, Agrees, Tokens.fault, Tokens.offset]
    | question =>
      exact (agrees_readSource .repetitionSource (.next .question offset rest) stack).map _
    | dot => exact (agrees_readSource .repetitionSource (.next .dot offset rest) stack).map _
    | _ => rfl

/-- Without a tilde a tag is a value that may be repeated. -/
theorem verdict_tag {tokens : Tokens} (other : ∀ offset rest, tokens ≠ .next .tilde offset rest) :
    verdict (.tag :: stack) tokens = verdict (.value :: .optionalRepeats :: stack) tokens := by
  cases tokens with
  | done offset => rfl
  | next token offset rest =>
    cases token with
    | tilde => exact absurd rfl (other offset rest)
    | _ => rfl

theorem agrees_readTag (tokens : Tokens) (stack : List Pending) :
    Agrees (readTag tokens) stack (verdict (.tag :: stack) tokens) := by
  unfold readTag
  split
  · rename_i offset rest
    exact (agrees_readSource .entrySource rest stack).map fun source =>
      (Expr.current, some (Repetition.entries source))
  · rename_i other
    rw [verdict_tag other]
    refine (agrees_readExpr .tagName tokens _).bind ?_
    intro name rest read
    dsimp only
    split
    · rename_i offset rest
      exact (agrees_readRepetition rest stack).map fun repetition => (name, some repetition)
    · rename_i once
      refine verdict_optional rfl ?_
      rintro token offset rest rfl
      cases token with
      | star => exact absurd rfl (once offset rest)
      | _ => rfl

/-- A value that may be missing is not missing where an expression starts. -/
theorem verdict_optionalValue {tokens : Tokens} (starts : startsExpr tokens = true) :
    verdict (.optionalValue :: stack) tokens = verdict (.value :: stack) tokens := by
  cases tokens with
  | done offset => cases starts
  | next token offset rest => cases token <;> first | rfl | cases starts

/-- The machine where an item has to come. -/
def begun (item : Item) (stack : List Pending) : Tokens → Option Nat
  | .done offset => some offset
  | .next token offset rest =>
    match item.move (depthOf stack) token with
    | .push parts => verdict (parts ++ stack) rest
    | .skip | .fail => some offset

theorem agrees_readAttribute (tokens : Tokens) (stack : List Pending) :
    Agrees (readAttribute tokens) stack (begun .pairing stack tokens) := by
  unfold readAttribute
  split
  · rename_i offset rest
    refine (agrees_readExpr .attributeName rest _).bind ?_
    intro name rest read
    dsimp only
    split
    · rename_i starts
      show Agrees _ stack (verdict (.optionalValue :: stack) rest)
      rw [verdict_optionalValue starts]
      exact (agrees_readExpr .attributeValue rest stack).map fun value => Attribute.mk name value
    · rename_i ends
      refine verdict_optional rfl ?_
      rintro token offset rest rfl
      cases token <;> first | rfl | exact absurd rfl ends
  · rename_i other
    cases tokens with
    | done offset => rfl
    | next token offset rest =>
      cases token with
      | equals => exact absurd rfl (other offset rest)
      | _ => rfl

theorem agrees_readContent (tokens : Tokens) (stack : List Pending) :
    Agrees (readContent tokens) stack (verdict (.value :: stack) tokens) :=
  (agrees_readExpr .content tokens stack).map nodeOfExpr

/-! ## Items one after another -/

/-- The depth is counted in closing signs only, so an item that may be repeated does not add to it. -/
theorem depthOf_many (item : Item) (stack : List Pending) :
    depthOf (.many item :: stack) = depthOf stack := by
  simp [depthOf, Pending.closes]

theorem verdict_many_of_ne_skip {item : Item}
    (starts : item.move (depthOf stack) token ≠ .skip) :
    verdict (.many item :: stack) (.next token offset rest) =
      begun item (.many item :: stack) (.next token offset rest) := by
  rw [begun, depthOf_many, verdict, step, Pending.move]
  cases move : item.move (depthOf stack) token with
  | push parts => simp [Move.andThen]
  | skip => exact absurd move starts
  | fail => simp [Move.andThen]

/-- What repetition needs to know of an item: where it starts, that it takes tokens, and that its
reader agrees with the machine. -/
structure Follows {α : Type} (starts : Tokens → Bool)
    (reader : Tokens → Except Fault (α × Tokens)) (item : Item) (stack : List Pending) : Prop where
  not_done : ∀ offset, starts (.done offset) = false
  skips : ∀ token offset rest, starts (.next token offset rest) = false →
    item.move (depthOf stack) token = .skip
  begins : ∀ token offset rest, starts (.next token offset rest) = true →
    verdict (.many item :: stack) (.next token offset rest) =
      begun item (.many item :: stack) (.next token offset rest)
  shorter : ∀ tokens x rest, reader tokens = .ok (x, rest) → rest.size < tokens.size
  agrees : ∀ tokens, Agrees (reader tokens) (.many item :: stack)
    (begun item (.many item :: stack) tokens)

theorem agrees_readWithin {α : Type} {starts : Tokens → Bool}
    {reader : Tokens → Except Fault (α × Tokens)} {item : Item}
    (follows : Follows starts reader item stack) {bound tokens : Tokens}
    (enough : tokens.size ≤ bound.size) :
    Agrees (readWithin starts reader bound tokens) stack (verdict (.many item :: stack) tokens) := by
  induction bound generalizing tokens with
  | done offset =>
    cases tokens with
    | done offset => exact verdict_optional rfl nofun
    | next token offset rest => simp at enough
  | next token offset bound ih =>
    rw [readWithin]
    split
    · rename_i starting
      cases tokens with
      | done offset => simp [follows.not_done] at starting
      | next token offset rest =>
        rw [follows.begins _ _ _ starting]
        refine (follows.agrees _).bind ?_
        intro x middle read
        -- the bound counts items, and each of them took a token
        have shorter := follows.shorter _ _ _ read
        simp only [Tokens.size_next] at enough shorter
        exact (ih (by omega)).map fun xs => x :: xs
    · rename_i ends
      refine verdict_optional rfl ?_
      rintro token offset rest rfl
      rw [Pending.move, follows.skips _ _ _ (Bool.eq_false_iff.mpr ends)]
      rfl

theorem agrees_readMany {α : Type} {starts : Tokens → Bool}
    {reader : Tokens → Except Fault (α × Tokens)} {item : Item}
    (follows : Follows starts reader item stack) (tokens : Tokens) :
    Agrees (readMany starts reader tokens) stack (verdict (.many item :: stack) tokens) :=
  agrees_readWithin follows (Nat.le_refl _)

theorem follows_readAttribute (stack : List Pending) :
    Follows startsAttribute readAttribute .pairing stack where
  not_done := fun offset => rfl
  skips := by
    intro token offset rest ends
    cases token <;> first | rfl | cases ends
  begins := by
    intro token offset rest starts
    refine verdict_many_of_ne_skip fun same => ?_
    cases token with
    | equals => cases same
    | _ => cases starts
  shorter := size_lt_of_sound (fun _ _ _ => pairing_of_readAttribute false) fun _ _ _ =>
    Grammar.Pairing.length_lt
  agrees := fun tokens => agrees_readAttribute tokens _

/-! ## Nodes -/

/-- With `levels` left, `nested` agrees with the machine on every stack that uses the others. -/
def NestedAgrees (levels : Nat) (nested : Tokens → Except Fault (Node × Tokens)) : Prop :=
  ∀ tokens stack, depthOf stack + levels = maxDepth →
    Agrees (nested tokens) stack (begun .nested stack tokens)

section
variable {levels : Nat} {nested : Tokens → Except Fault (Node × Tokens)}

theorem agrees_readNode (agrees : NestedAgrees levels nested) (tokens : Tokens)
    (room : depthOf stack + levels = maxDepth) :
    Agrees (readNode nested tokens) stack (begun .node stack tokens) := by
  cases tokens with
  | done offset => rfl
  | next token offset rest =>
    cases token with
    | ampersand => exact agrees_readContent rest stack
    | less => exact agrees (.next .less offset rest) stack room
    | openBrace => exact agrees (.next .openBrace offset rest) stack room
    | _ => rfl

theorem moveNested_ne_skip {depth : Nat} (starts : token = .less ∨ token = .openBrace) :
    moveNested depth token ≠ .skip := by
  intro same
  rcases starts with rfl | rfl <;>
  · rw [moveNested] at same
    split at same <;> cases same

theorem follows_nested (agrees : NestedAgrees levels nested)
    (shorter : ∀ tokens x rest, nested tokens = .ok (x, rest) → rest.size < tokens.size)
    (room : depthOf stack + levels = maxDepth) : Follows startsNested nested .nested stack where
  not_done := fun offset => rfl
  skips := by
    intro token offset rest ends
    cases token <;> first | rfl | cases ends
  begins := by
    intro token offset rest starts
    refine verdict_many_of_ne_skip (moveNested_ne_skip ?_)
    simpa [Tokens.sequence] using startsNested_iff.mp starts
  shorter := shorter
  agrees := fun tokens => agrees tokens _ (by rwa [depthOf_many])

theorem follows_readNode (agrees : NestedAgrees levels nested)
    (shorter : ∀ tokens x rest, readNode nested tokens = .ok (x, rest) → rest.size < tokens.size)
    (room : depthOf stack + levels = maxDepth) :
    Follows startsNode (readNode nested) .node stack where
  not_done := fun offset => rfl
  skips := by
    intro token offset rest ends
    cases token <;> first | rfl | cases ends
  begins := by
    intro token offset rest starts
    refine verdict_many_of_ne_skip fun same => ?_
    cases token with
    | ampersand => cases same
    | less => exact moveNested_ne_skip (.inl rfl) same
    | openBrace => exact moveNested_ne_skip (.inr rfl) same
    | _ => cases starts
  shorter := shorter
  agrees := fun tokens => agrees_readNode agrees tokens (by rwa [depthOf_many])

/-- Without an ampersand the children are elements and scopes. -/
theorem verdict_body {tokens : Tokens}
    (other : ∀ offset rest, tokens ≠ .next .ampersand offset rest) :
    verdict (.body :: stack) tokens = verdict (.many .nested :: stack) tokens := by
  cases tokens with
  | done offset => rfl
  | next token offset rest =>
    cases token with
    | ampersand => exact absurd rfl (other offset rest)
    | _ => rfl

variable (agrees : NestedAgrees levels nested)
  (sound : Sound nested fun tokens node rest =>
    Grammar.Nested false tokens node rest ∧ node.depth ≤ levels)
include agrees sound

theorem agrees_readChildren (tokens : Tokens) (room : depthOf stack + levels = maxDepth) :
    Agrees (readChildren nested tokens) stack (verdict (.body :: stack) tokens) := by
  unfold readChildren
  split
  · rename_i offset rest
    exact (agrees_readContent rest stack).map fun only => [only]
  · rename_i other
    rw [verdict_body other]
    have shorter := size_lt_of_sound sound fun _ _ _ phrase => phrase.1.length_lt
    exact agrees_readMany (follows_nested agrees shorter room) tokens

theorem agrees_readElement (tokens : Tokens) (room : depthOf stack + 1 + levels = maxDepth) :
    Agrees (readElement nested tokens) stack
      (verdict (.tag :: .many .pairing :: .body :: .greater :: stack) tokens) := by
  refine (agrees_readTag tokens _).bind ?_
  rintro ⟨name, repetition⟩ rest read
  refine (agrees_readMany (follows_readAttribute _) rest).bind ?_
  intro attributes rest read
  refine (agrees_readChildren agrees sound rest ?_).bind ?_
  · simpa [depthOf, List.countP_cons, Pending.closes] using room
  · intro children rest read
    dsimp only
    split
    · rfl
    · rename_i missing
      cases rest with
      | done offset => rfl
      | next token offset rest =>
        cases token with
        | greater => exact absurd rfl (missing offset rest)
        | _ => rfl

theorem agrees_readScope (tokens : Tokens) (room : depthOf stack + 1 + levels = maxDepth) :
    Agrees (readScope nested tokens) stack
      (verdict (.source :: .many .node :: .closeBrace :: stack) tokens) := by
  have shorter := size_lt_of_sound (anyNode_of_readNode sound) fun _ _ _ phrase =>
    phrase.1.length_lt
  refine (agrees_readSource .scopeSource tokens _).bind ?_
  intro source rest read
  refine (agrees_readMany (follows_readNode agrees shorter ?_) rest).bind ?_
  · simpa [depthOf, List.countP_cons, Pending.closes] using room
  · intro children rest read
    dsimp only
    split
    · rfl
    · rename_i missing
      cases rest with
      | done offset => rfl
      | next token offset rest =>
        cases token with
        | closeBrace => exact absurd rfl (missing offset rest)
        | _ => rfl
end

theorem agrees_readNested (levels : Nat) : NestedAgrees levels (readNested levels) := by
  induction levels with
  | zero =>
    intro tokens stack room
    cases tokens with
    | done offset => rfl
    | next token offset rest =>
      -- the stack uses all levels, so the machine refuses an opening sign as well
      have full : ¬ depthOf stack < maxDepth := by omega
      cases token with
      | less | openBrace => simp [begun, Item.move, moveNested, full, readNested, Agrees]; rfl
      | _ => rfl
  | succ levels ih =>
    intro tokens stack room
    have sound := nested_of_readNested false levels
    have below : depthOf stack < maxDepth := by omega
    cases tokens with
    | done offset => rfl
    | next token offset rest =>
      cases token with
      | less =>
        have room : depthOf stack + 1 + levels = maxDepth := by omega
        have agrees := agrees_readElement ih sound rest room
        simpa [begun, Item.move, moveNested, below, readNested] using agrees
      | openBrace =>
        have room : depthOf stack + 1 + levels = maxDepth := by omega
        have agrees := agrees_readScope ih sound rest room
        simpa [begun, Item.move, moveNested, below, readNested] using agrees
      | _ => rfl

/-! ## Documents -/

/-- What is to come before the first token. -/
def start : List Pending := [.many .node]

/-- Nothing may follow the nodes, so a token that starts no node stops the machine as well. -/
theorem follows_nodes : Follows goesOn (readNode (readNested maxDepth)) .node [] where
  not_done := fun offset => rfl
  skips := nofun
  begins := by
    intro token offset rest starts
    by_cases passed : Item.node.move (depthOf []) token = .skip
    · -- nothing is below the nodes, so a token that is passed over stops the machine
      have skipped : Pending.move (depthOf []) (.many .node) token = .skip := by
        rw [Pending.move, passed]
        rfl
      rw [verdict_skip skipped, begun, depthOf_many, passed]
      rfl
    · exact verdict_many_of_ne_skip passed
  shorter := size_lt_of_readNode
  agrees := fun tokens => agrees_readNode (agrees_readNested maxDepth) tokens rfl

theorem agrees_readNodes (tokens : Tokens) :
    Agrees (readNodes tokens) [] (verdict start tokens) :=
  agrees_readMany follows_nodes tokens

theorem verdict_of_readNodes_ok {tokens rest : Tokens} {nodes : List Node}
    (read : readNodes tokens = .ok (nodes, rest)) : verdict start tokens = none := by
  have agrees := agrees_readNodes tokens
  rw [read] at agrees
  obtain ⟨offset, rfl⟩ := done_of_readNodes read
  exact agrees

theorem verdict_of_readNodes_error {tokens : Tokens} {fault : Fault}
    (read : readNodes tokens = .error fault) : verdict start tokens = some fault.offset := by
  have agrees := agrees_readNodes tokens
  rwa [read] at agrees

/-- The machine accepts what is read as nodes. -/
theorem readNodes_ok_iff {tokens : Tokens} :
    (∃ both, readNodes tokens = .ok both) ↔ Accepts start tokens.sequence := by
  rw [← verdict_eq_none_iff]
  cases read : readNodes tokens with
  | ok both => simp [verdict_of_readNodes_ok read]
  | error fault => simp [verdict_of_readNodes_error read]

end XmlTemplate.Format
