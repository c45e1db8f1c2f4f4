import XmlTemplate.Proofs.Format.Grammar
import XmlTemplate.Proofs.Format.Stream

/-!
# What is derivable is read

Each reader is complete for its phrases: where tokens start with a phrase and what follows cannot
prolong it, the reader takes exactly the phrase. With runs of segments as long as possible it also
gives what the derivation gives. Without, it takes the same tokens: the only freedom is where the
segments after the name of an attribute belong, and as they may all belong to the name, nothing that
is derivable is lost.

Results:
1. `gives_readSteps`, `gives_readExpr`: runs of segments and values.
2. `gives_readMany`: items one after another.
3. `gives_readNested`: elements and scopes.
4. `readNodes_of_document`: whole documents.
-/

namespace XmlTemplate.Format

open Grammar

/-! ## Successful reading -/

/-- Reading succeeds and leaves `rest`. With `longest` it gives `x`. -/
def Gives {α : Type} (longest : Bool) (result : Except Fault (α × Tokens)) (x : α)
    (rest : List Token) : Prop :=
  ∃ found after, result = .ok (found, after) ∧ after.sequence = rest ∧
    (longest = true → found = x)

section
variable {α β : Type} {longest : Bool}

theorem Gives.of_ok {x : α} {after : Tokens} {rest : List Token} (shape : after.sequence = rest) :
    Gives longest (.ok (x, after)) x rest :=
  ⟨x, after, rfl, shape, fun _ => rfl⟩

theorem Gives.bind {first : Except Fault (α × Tokens)}
    {next : α × Tokens → Except Fault (β × Tokens)} {x : α} {y : β} {middle rest : List Token}
    (start : Gives longest first x middle)
    (go : ∀ found after, after.sequence = middle → (longest = true → found = x) →
      Gives longest (next (found, after)) y rest) :
    Gives longest (first >>= next) y rest := by
  obtain ⟨found, after, rfl, shape, same⟩ := start
  exact go found after shape same

/-- A last step that only builds a result. -/
theorem Gives.map {first : Except Fault (α × Tokens)} {x : α} {rest : List Token}
    (start : Gives longest first x rest) (f : α → β) :
    Gives longest (first >>= fun both => pure (f both.1, both.2)) (f x) rest := by
  refine start.bind fun found after shape same => ⟨f found, after, rfl, shape, fun long => ?_⟩
  rw [same long]

/-- Without `longest` what is read does not matter. -/
theorem Gives.of_false {result : Except Fault (α × Tokens)} {x y : α} {rest : List Token}
    (given : Gives false result x rest) : Gives false result y rest := by
  obtain ⟨found, after, read, shape, -⟩ := given
  exact ⟨found, after, read, shape, nofun⟩
end

variable {longest : Bool} {sequence rest : List Token} {tokens : Tokens}

/-! ## Values -/

/-- The input ends or goes on with a sign that no expression starts with or contains. -/
def breaks : List Token → Bool
  | [] => true
  | .less :: _ | .greater :: _ | .ampersand :: _ | .equals :: _ => true
  | .openBrace :: _ | .closeBrace :: _ => true
  | _ => false

theorem not_dot_of_breaks (ends : breaks rest = true) : rest.head? ≠ some .dot := by
  rintro starts
  obtain ⟨more, rfl⟩ := List.head?_eq_some_iff.mp starts
  cases ends

/-- A first segment is read before the segments after it. -/
theorem readSteps_of_segment {step : Step} (first : Segment sequence step rest)
    (shape : tokens.sequence = sequence) :
    ∃ after : Tokens, after.sequence = rest ∧
      readSteps tokens = readSteps after >>= fun both => pure (step :: both.1, both.2) := by
  cases first with
  | index _ digits =>
    obtain ⟨dotAt, rest, rfl, inner⟩ := sequence_eq_cons shape
    obtain ⟨wordAt, after, rfl, last⟩ := sequence_eq_cons inner
    exact ⟨after, last, by rw [readSteps, stepOfBare, if_pos digits]⟩
  | key _ digits =>
    obtain ⟨dotAt, rest, rfl, inner⟩ := sequence_eq_cons shape
    obtain ⟨wordAt, after, rfl, last⟩ := sequence_eq_cons inner
    exact ⟨after, last, by rw [readSteps, stepOfBare, digits]; rfl⟩
  | quoted text _ =>
    obtain ⟨dotAt, rest, rfl, inner⟩ := sequence_eq_cons shape
    obtain ⟨textAt, after, rfl, last⟩ := sequence_eq_cons inner
    exact ⟨after, last, by rw [readSteps]⟩

theorem gives_readSteps {steps : List Step} (run : Segments longest sequence steps rest)
    (ends : rest.head? ≠ some .dot) (shape : tokens.sequence = sequence) :
    Gives longest (readSteps tokens) steps rest := by
  induction run generalizing tokens with
  | nil stops =>
    have other : tokens.first? ≠ some .dot := by rwa [← sequence_head?, shape]
    rw [readSteps_of_not_dot other]
    exact .of_ok shape
  | @cons _ _ _ step _ first others ih =>
    obtain ⟨after, last, read⟩ := readSteps_of_segment first shape
    rw [read]
    exact (ih ends last).map fun others => step :: others

theorem gives_readExpr_of_source {expected : Expectation} {source : Expr}
    (phrase : Source longest sequence source rest) (ends : rest.head? ≠ some .dot)
    (shape : tokens.sequence = sequence) :
    Gives longest (readExpr expected tokens) source rest := by
  cases phrase with
  | question run =>
    obtain ⟨offset, after, rfl, last⟩ := sequence_eq_cons shape
    exact (gives_readSteps run ends last).map Expr.ofSteps
  | segments first run =>
    have starts : sequence.head? = some .dot := by cases first <;> rfl
    obtain ⟨more, rfl⟩ := List.head?_eq_some_iff.mp starts
    obtain ⟨offset, after, rfl, last⟩ := sequence_eq_cons shape
    exact (gives_readSteps (.cons first run) ends shape).map Expr.ofSteps

theorem gives_readExpr {expected : Expectation} {expr : Expr}
    (phrase : Value longest sequence expr rest)
    (ends : Source longest sequence expr rest → rest.head? ≠ some .dot)
    (shape : tokens.sequence = sequence) : Gives longest (readExpr expected tokens) expr rest := by
  cases phrase with
  | source phrase => exact gives_readExpr_of_source phrase (ends phrase) shape
  | bare word | quoted text =>
    obtain ⟨offset, after, rfl, last⟩ := sequence_eq_cons shape
    exact .of_ok last

theorem gives_readSource {expected : Expectation} {source : Expr}
    (phrase : Source longest sequence source rest) (ends : rest.head? ≠ some .dot)
    (shape : tokens.sequence = sequence) :
    Gives longest (readSource expected tokens) source rest := by
  have starts : startsSource tokens = true := startsSource_iff.mpr (shape ▸ phrase.starts)
  rw [readSource, if_pos starts]
  exact gives_readExpr_of_source phrase ends shape

/-! ## Parts of an element -/

theorem gives_readRepetition {repetition : Repetition}
    (phrase : Repeats longest sequence repetition rest) (ends : breaks rest = true)
    (shape : tokens.sequence = sequence) :
    Gives longest (readRepetition tokens) repetition rest := by
  cases phrase with
  | count _ digits small =>
    obtain ⟨offset, after, rfl, last⟩ := sequence_eq_cons shape
    simp only [readRepetition, digits?_eq_some_iff.mpr ⟨digits, rfl⟩]
    rw [if_pos small]
    exact .of_ok last
  | items source =>
    rw [readRepetition]
    · exact (gives_readSource source (not_dot_of_breaks ends) shape).map Repetition.items
    · rintro word offset after rfl
      rcases source.starts with starts | starts <;> rw [← shape] at starts <;> cases starts

theorem gives_readTag {tag : Expr × Option Repetition} (phrase : Tag longest sequence tag rest)
    (ends : breaks rest = true) (shape : tokens.sequence = sequence) :
    Gives longest (readTag tokens) tag rest := by
  cases phrase with
  | entries source =>
    obtain ⟨offset, after, rfl, last⟩ := sequence_eq_cons shape
    rw [readTag]
    exact (gives_readSource source (not_dot_of_breaks ends) last).map fun source =>
      (Expr.current, some (Repetition.entries source))
  | once name =>
    rw [readTag]
    · refine (gives_readExpr name (fun _ => not_dot_of_breaks ends) shape).bind ?_
      intro found after last same
      dsimp only
      split
      · subst last
        cases ends
      · exact ⟨_, _, rfl, last, fun long => by rw [same long]⟩
    · rintro offset after rfl
      exact name.ne_tilde (shape ▸ rfl)
  | repeated name repetition =>
    rw [readTag]
    · refine (gives_readExpr name (fun _ => by simp) shape).bind ?_
      intro found middle next same
      obtain ⟨offset, after, rfl, inner⟩ := sequence_eq_cons next
      refine (gives_readRepetition repetition ends inner).bind ?_
      intro count after last again
      exact ⟨_, _, rfl, last, fun long => by rw [same long, again long]⟩
    · rintro offset after rfl
      exact name.ne_tilde (shape ▸ rfl)

/-! ### Attributes -/

theorem startsExpr_of_value {expr : Expr} (phrase : Value longest tokens.sequence expr rest) :
    startsExpr tokens = true := by
  rcases phrase.starts with starts | starts | ⟨word, starts⟩ | ⟨text, starts⟩ <;>
  · obtain ⟨offset, rest, rfl⟩ := eq_next_of_head? starts
    rfl

theorem not_startsExpr_of_breaks (ends : breaks tokens.sequence = true) :
    startsExpr tokens = false := by
  cases tokens with
  | done offset => rfl
  | next token offset rest => cases token <;> first | rfl | cases ends

theorem gives_readAttribute_nameOnly {name : Expr} (phrase : Value longest sequence name rest)
    (ends : breaks rest = true) (shape : tokens.sequence = .equals :: sequence) :
    Gives longest (readAttribute tokens) ⟨name, .current⟩ rest := by
  obtain ⟨offset, tokens, rfl, inner⟩ := sequence_eq_cons shape
  refine (gives_readExpr phrase (fun _ => not_dot_of_breaks ends) inner).bind ?_
  intro found after last same
  have stops := not_startsExpr_of_breaks (last ▸ ends)
  dsimp only
  rw [if_neg (by simp [stops])]
  exact ⟨_, _, rfl, last, fun long => by rw [same long]⟩

theorem gives_readAttribute {item : Attribute} (phrase : Pairing longest sequence item rest)
    (ends : breaks rest = true) (shape : tokens.sequence = sequence) :
    Gives longest (readAttribute tokens) item rest := by
  cases phrase with
  | nameOnly name => exact gives_readAttribute_nameOnly name ends shape
  | @both after middle _ called _ name value =>
    -- Only a name that is a run of segments itself can take the segments of the value.
    by_cases joins : Source longest after called middle ∧ middle.head? = some .dot
    · obtain ⟨source, starts⟩ := joins
      obtain ⟨step, steps, others, first, run⟩ := value.segments starts
      cases longest with
      | true => exact absurd ⟨step, others, first⟩ source.maximal
      | false =>
        obtain ⟨joined, phrase⟩ := source.append (.cons first run)
        exact (gives_readAttribute_nameOnly (.source phrase) ends shape).of_false
    · obtain ⟨offset, tokens, rfl, inner⟩ := sequence_eq_cons shape
      refine (gives_readExpr name (fun source starts => joins ⟨source, starts⟩) inner).bind ?_
      intro found between next same
      have goes : startsExpr between = true := startsExpr_of_value (next.symm ▸ value)
      dsimp only
      rw [if_pos goes]
      refine (gives_readExpr value (fun _ => not_dot_of_breaks ends) next).bind ?_
      intro read after last again
      exact ⟨_, _, rfl, last, fun long => by rw [same long, again long]⟩

theorem gives_readContent {node : Node} (phrase : Content longest sequence node rest)
    (ends : breaks rest = true) (shape : tokens.sequence = sequence) :
    Gives longest (readContent tokens) node rest := by
  cases phrase with
  | bare word =>
    exact (gives_readExpr (.bare word _) (fun _ => not_dot_of_breaks ends) shape).map fun expr =>
      nodeOfExpr expr
  | quoted text =>
    exact (gives_readExpr (.quoted text _) (fun _ => not_dot_of_breaks ends) shape).map fun expr =>
      nodeOfExpr expr
  | source source =>
    rw [← source.nodeOfExpr]
    exact (gives_readExpr (.source source) (fun _ => not_dot_of_breaks ends) shape).map fun expr =>
      nodeOfExpr expr

/-! ## Items one after another -/

/-- A reader takes the phrases of `phrase` and starts exactly there. -/
structure Complete {α : Type} (longest : Bool) (starts : Tokens → Bool)
    (item : Tokens → Except Fault (α × Tokens)) (phrase : List Token → α → List Token → Prop) :
    Prop where
  gives : ∀ {sequence rest x} {tokens : Tokens}, phrase sequence x rest → breaks rest = true →
    tokens.sequence = sequence → Gives longest (item tokens) x rest
  starts : ∀ {tokens : Tokens} {x rest}, phrase tokens.sequence x rest → starts tokens = true
  breaks : ∀ {sequence x rest}, phrase sequence x rest → breaks sequence = true
  shorter : ∀ sequence x rest, phrase sequence x rest → rest.length < sequence.length

section
variable {α : Type} {starts : Tokens → Bool} {item : Tokens → Except Fault (α × Tokens)}
  {phrase : List Token → α → List Token → Prop} {xs : List α}

theorem Complete.breaks_many (complete : Complete longest starts item phrase)
    (many : Many phrase sequence xs rest) (ends : Format.breaks rest = true) :
    Format.breaks sequence = true := by
  cases many with
  | nil rest => exact ends
  | cons first others => exact complete.breaks first

theorem gives_readWithin (complete : Complete longest starts item phrase)
    (many : Many phrase sequence xs rest) {bound : Tokens} (enough : xs.length ≤ bound.size)
    (ends : breaks rest = true)
    (stops : ∀ after : Tokens, after.sequence = rest → starts after = false)
    (shape : tokens.sequence = sequence) :
    Gives longest (readWithin starts item bound tokens) xs rest := by
  induction many generalizing bound tokens with
  | nil rest =>
    cases bound with
    | done offset => exact .of_ok shape
    | next token offset bound =>
      rw [readWithin, if_neg (by simp [stops tokens shape])]
      exact .of_ok shape
  | cons first others ih =>
    cases bound with
    | done offset => simp at enough
    | next token offset bound =>
      rw [readWithin, if_pos (complete.starts (shape.symm ▸ first))]
      -- the next item or the rest follows, and neither prolongs this item
      refine (complete.gives first (complete.breaks_many others ends) shape).bind ?_
      intro found middle next same
      refine (ih (Nat.le_of_succ_le_succ enough) ends stops next).bind ?_
      intro more after last again
      exact ⟨_, _, rfl, last, fun long => by rw [same long, again long]⟩

theorem gives_readMany (complete : Complete longest starts item phrase)
    (many : Many phrase sequence xs rest) (ends : breaks rest = true)
    (stops : ∀ after : Tokens, after.sequence = rest → starts after = false)
    (shape : tokens.sequence = sequence) :
    Gives longest (readMany starts item tokens) xs rest := by
  have count := many.length_le complete.shorter
  have size := sequence_length tokens
  rw [shape] at size
  exact gives_readWithin complete many (by omega) ends stops shape
end

theorem complete_readAttribute :
    Complete longest startsAttribute readAttribute (Pairing longest) where
  gives := gives_readAttribute
  starts := by
    intro tokens item rest phrase
    generalize shape : tokens.sequence = sequence at phrase
    cases phrase <;>
    · obtain ⟨offset, after, rfl, last⟩ := sequence_eq_cons shape
      rfl
  breaks := by
    intro sequence item rest phrase
    cases phrase <;> rfl
  shorter := fun _ _ _ => Pairing.length_lt

/-! ## Nodes -/

/-- Elements and scopes that are at most `levels` deep are read. -/
def CompleteWithin (longest : Bool) (levels : Nat)
    (nested : Tokens → Except Fault (Node × Tokens)) : Prop :=
  ∀ {sequence rest : List Token} {node : Node} {tokens : Tokens},
    Nested longest sequence node rest → node.depth ≤ levels → tokens.sequence = sequence →
      Gives longest (nested tokens) node rest

section
variable {levels : Nat} {nested : Tokens → Except Fault (Node × Tokens)} {node : Node}

theorem complete_nested (reads : CompleteWithin longest levels nested) :
    Complete longest startsNested nested fun sequence node rest =>
      Nested longest sequence node rest ∧ node.depth ≤ levels where
  gives := fun phrase _ shape => reads phrase.1 phrase.2 shape
  starts := fun phrase => startsNested_iff.mpr phrase.1.starts
  breaks := by
    rintro sequence node rest ⟨phrase, shallow⟩
    cases phrase <;> rfl
  shorter := fun _ _ _ phrase => phrase.1.length_lt

theorem gives_readNode (reads : CompleteWithin longest levels nested)
    (phrase : AnyNode longest sequence node rest) (shallow : node.depth ≤ levels)
    (ends : breaks rest = true) (shape : tokens.sequence = sequence) :
    Gives longest (readNode nested tokens) node rest := by
  cases phrase with
  | nested phrase =>
    rw [readNode, if_pos (startsNested_iff.mpr (shape.symm ▸ phrase.starts))]
    · exact reads phrase shallow shape
    · rintro offset after rfl
      rcases phrase.starts with starts | starts <;> rw [← shape] at starts <;> cases starts
  | content phrase =>
    obtain ⟨offset, after, rfl, last⟩ := sequence_eq_cons shape
    exact gives_readContent phrase ends last

theorem startsNode_of_anyNode (phrase : AnyNode longest tokens.sequence node rest) :
    startsNode tokens = true := by
  rcases phrase.starts with starts | starts | starts <;>
  · obtain ⟨offset, rest, rfl⟩ := eq_next_of_head? starts
    rfl

theorem Grammar.AnyNode.breaks (phrase : AnyNode longest sequence node rest) :
    Format.breaks sequence = true := by
  cases phrase with
  | nested phrase => cases phrase <;> rfl
  | content phrase => rfl

theorem complete_readNode (reads : CompleteWithin longest levels nested) :
    Complete longest startsNode (readNode nested) fun sequence node rest =>
      AnyNode longest sequence node rest ∧ node.depth ≤ levels where
  gives := fun phrase => gives_readNode reads phrase.1 phrase.2
  starts := fun phrase => startsNode_of_anyNode phrase.1
  breaks := fun phrase => phrase.1.breaks
  shorter := fun _ _ _ phrase => phrase.1.length_lt

/-- Where attributes end, a content, an element, a scope or the end of the element follows. -/
theorem not_startsAttribute {token : Token} {more : List Token} (other : token ≠ .equals)
    (shape : tokens.sequence = token :: more) : startsAttribute tokens = false := by
  obtain ⟨offset, after, rfl, last⟩ := sequence_eq_cons shape
  cases token <;> first | rfl | exact absurd rfl other

theorem not_startsNested_of_greater {more : List Token}
    (shape : tokens.sequence = .greater :: more) : startsNested tokens = false := by
  obtain ⟨offset, after, rfl, last⟩ := sequence_eq_cons shape
  rfl

theorem not_startsNode_of_closeBrace {more : List Token}
    (shape : tokens.sequence = .closeBrace :: more) : startsNode tokens = false := by
  obtain ⟨offset, after, rfl, last⟩ := sequence_eq_cons shape
  rfl

theorem children_start {children : List Node}
    (phrases : Many (fun sequence node rest =>
      Nested longest sequence node rest ∧ node.depth ≤ levels) sequence children
        (.greater :: rest)) :
    ∃ token more, sequence = token :: more ∧ token ≠ .equals ∧ token ≠ .ampersand := by
  cases phrases with
  | nil => exact ⟨_, _, rfl, by simp, by simp⟩
  | cons first others => rcases first with ⟨⟨⟩, -⟩ <;> exact ⟨_, _, rfl, by simp, by simp⟩

theorem gives_readElement (reads : CompleteWithin longest levels nested)
    (phrase : Nested longest (.less :: sequence) node rest) (shallow : node.depth ≤ levels + 1)
    (shape : tokens.sequence = sequence) :
    Gives longest (readElement nested tokens) node rest := by
  cases phrase with
  | content tag attributes child =>
    have afterTag := complete_readAttribute.breaks_many attributes rfl
    refine (gives_readTag tag afterTag shape).bind ?_
    intro read middle next same
    refine (gives_readMany complete_readAttribute attributes rfl
      (fun _ => not_startsAttribute (by simp)) next).bind ?_
    intro items middle next again
    obtain ⟨offset, middle, rfl, inner⟩ := sequence_eq_cons next
    refine Gives.bind ((gives_readContent child rfl inner).map fun only => [only]) ?_
    intro nodes middle next third
    obtain ⟨offset, after, rfl, last⟩ := sequence_eq_cons next
    exact ⟨_, _, rfl, last, fun long => by rw [same long, again long, third long]⟩
  | @children _ afterTag _ _ _ _ _ children tag attributes phrases =>
    have inside := depthAll_le_iff.mp (Nat.le_of_succ_le_succ shallow)
    have phrases := many_and_iff.mpr ⟨phrases, inside⟩
    -- an opening sign or the end of the element follows the attributes
    have afterAttributes := (complete_nested reads).breaks_many phrases rfl
    have ends := complete_readAttribute.breaks_many attributes afterAttributes
    refine (gives_readTag tag ends shape).bind ?_
    intro read middle next same
    obtain ⟨token, more, rfl, notEquals, notAmpersand⟩ := children_start phrases
    refine (gives_readMany complete_readAttribute attributes afterAttributes
      (fun _ => not_startsAttribute notEquals) next).bind ?_
    intro items middle next again
    have inner : Gives longest (readChildren nested middle) children (.greater :: rest) := by
      rw [readChildren]
      · exact gives_readMany (complete_nested reads) phrases rfl
          (fun _ => not_startsNested_of_greater) next
      · rintro offset after rfl
        exact notAmpersand (by cases next; rfl)
    refine inner.bind ?_
    intro nodes middle next third
    obtain ⟨offset, after, rfl, last⟩ := sequence_eq_cons next
    exact ⟨_, _, rfl, last, fun long => by rw [same long, again long, third long]⟩

theorem gives_readScope (reads : CompleteWithin longest levels nested)
    (phrase : Nested longest (.openBrace :: sequence) node rest) (shallow : node.depth ≤ levels + 1)
    (shape : tokens.sequence = sequence) :
    Gives longest (readScope nested tokens) node rest := by
  cases phrase with
  | scope source phrases =>
    have inside := depthAll_le_iff.mp (Nat.le_of_succ_le_succ shallow)
    have phrases := many_and_iff.mpr ⟨phrases, inside⟩
    have afterSource := (complete_readNode reads).breaks_many phrases rfl
    refine (gives_readSource source (not_dot_of_breaks afterSource) shape).bind ?_
    intro read middle next same
    refine (gives_readMany (complete_readNode reads) phrases rfl
      (fun _ => not_startsNode_of_closeBrace) next).bind ?_
    intro nodes middle next again
    obtain ⟨offset, after, rfl, last⟩ := sequence_eq_cons next
    exact ⟨_, _, rfl, last, fun long => by rw [same long, again long]⟩
end

theorem gives_readNested (levels : Nat) : CompleteWithin longest levels (readNested levels) := by
  induction levels with
  | zero =>
    intro sequence rest node tokens phrase shallow shape
    cases phrase <;> simp at shallow
  | succ levels ih =>
    intro sequence rest node tokens phrase shallow shape
    rcases phrase.starts with starts | starts <;>
    · obtain ⟨more, rfl⟩ := List.head?_eq_some_iff.mp starts
      obtain ⟨offset, after, rfl, last⟩ := sequence_eq_cons shape
      first
      | exact gives_readElement ih phrase shallow last
      | exact gives_readScope ih phrase shallow last

/-! ## Documents -/

theorem complete_nodes :
    Complete longest goesOn (readNode (readNested maxDepth)) fun sequence node rest =>
      AnyNode longest sequence node rest ∧ node.depth ≤ maxDepth where
  gives := fun phrase => gives_readNode (gives_readNested maxDepth) phrase.1 phrase.2
  starts := by
    rintro tokens node rest ⟨phrase, shallow⟩
    cases tokens with
    | next token offset rest => rfl
    | done offset => exact absurd phrase.length_lt (Nat.not_lt_zero _)
  breaks := fun phrase => phrase.1.breaks
  shorter := fun _ _ _ phrase => phrase.1.length_lt

theorem readNodes_of_document {nodes : List Node} (phrases : Document longest tokens.sequence nodes)
    (shallow : Node.depthAll nodes ≤ maxDepth) : Gives longest (readNodes tokens) nodes [] := by
  have phrases := many_and_iff.mpr ⟨phrases, depthAll_le_iff.mp shallow⟩
  refine gives_readMany complete_nodes phrases rfl ?_ rfl
  rintro after ends
  cases after with
  | done offset => rfl
  | next token offset rest => cases ends

end XmlTemplate.Format
