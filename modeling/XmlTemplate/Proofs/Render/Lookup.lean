import XmlTemplate.Proofs.Format.Shown
import XmlTemplate.Proofs.Result
import XmlTemplate.Render.Resolve

/-!
# Lookups that fail

An expression takes its segments one by one. It fails at the first segment that the object reached by
then refuses, and the error tells this segment and the path to this object. The path is a spelled
expression, so it can be compiled and resolved again: it leads to the object at which the segment failed.

Results:
1. `walk_eq_ok_iff`, `walk_eq_error_iff`: where a walk leads, and where it fails.
2. `resolve_chain_append`: segments may be taken in groups.
3. `step_shown`, `foldlM_step_shown`: segments that are read from their spelling lead to the same
   object.
4. `resolve_replay`: the path of an error leads to the object that it is about.
-/

namespace XmlTemplate.Render

open Result (bind_eq_ok)

/-! ## Walks -/

/-- The first of the segments that fails is `failing`: those in front of it lead from `object` to
`reached`, which refuses it. -/
structure FailsAt (object : Object) (steps front : List Step) (failing : Step) (reached : Object)
    (reason : Reason) : Prop where
  split : ∃ back, steps = front ++ failing :: back
  leads : front.foldlM step object = .ok reached
  refuses : step reached failing = .error reason

variable {object found : Object} {steps : List Step}

theorem foldlM_step_cons (next : Step) :
    (next :: steps).foldlM step object = .ok found ↔
      ∃ reached, step object next = .ok reached ∧ steps.foldlM step reached = .ok found := by
  rw [List.foldlM_cons, bind_eq_ok]

theorem walk_eq_ok_iff {path : String} :
    walk path steps object = .ok found ↔ steps.foldlM step object = .ok found := by
  induction steps generalizing path object with
  | nil => simp [walk, pure, Except.pure]
  | cons next steps ih =>
    rw [walk, foldlM_step_cons]
    cases step object next with
    | error reason => simp
    | ok reached => simp [ih]

theorem failsAt_here {next : Step} {reason : Reason} (refuses : step object next = .error reason)
    (back : List Step) : FailsAt object (next :: back) [] next object reason :=
  ⟨⟨back, rfl⟩, rfl, refuses⟩

theorem FailsAt.later {next failing : Step} {front : List Step} {reached : Object} {reason : Reason}
    (fails : FailsAt found steps front failing reached reason) (first : step object next = .ok found) :
    FailsAt object (next :: steps) (next :: front) failing reached reason := by
  obtain ⟨⟨back, rfl⟩, leads, refuses⟩ := fails
  exact ⟨⟨back, rfl⟩, (foldlM_step_cons next).mpr ⟨found, first, leads⟩, refuses⟩

/-- Segments fail at the first one or at a later one. -/
theorem FailsAt.cons_cases {next failing : Step} {front : List Step} {reached : Object}
    {reason : Reason} (fails : FailsAt object (next :: steps) front failing reached reason) :
    (front = [] ∧ failing = next ∧ reached = object ∧ step object next = .error reason) ∨
      ∃ found more, front = next :: more ∧ step object next = .ok found ∧
        FailsAt found steps more failing reached reason := by
  obtain ⟨⟨back, split⟩, leads, refuses⟩ := fails
  cases front with
  | nil =>
    cases split
    cases leads
    exact .inl ⟨rfl, rfl, rfl, refuses⟩
  | cons first more =>
    cases split
    obtain ⟨found, one, others⟩ := (foldlM_step_cons next).mp leads
    exact .inr ⟨found, more, rfl, one, ⟨back, rfl⟩, others, refuses⟩

theorem walk_eq_error_iff {path : String} {error : LookupError} :
    walk path steps object = .error error ↔
      ∃ front failing reached, FailsAt object steps front failing reached error.reason ∧
        error.path = path ++ Step.spellings front ∧ error.segment = failing.spelling := by
  induction steps generalizing path object with
  | nil =>
    constructor
    · nofun
    · rintro ⟨front, failing, reached, ⟨⟨back, split⟩, -, -⟩, -, -⟩
      simp at split
  | cons next steps ih =>
    rw [walk]
    cases first : step object next with
    | error reason =>
      constructor
      · rintro ⟨⟩
        exact ⟨[], next, object, failsAt_here first steps, by simp [Step.spellings], rfl⟩
      · rintro ⟨front, failing, reached, fails, shown, named⟩
        rcases fails.cons_cases with ⟨rfl, rfl, rfl, refuses⟩ | ⟨found, more, rfl, leads, -⟩
        · obtain ⟨path, segment, reason⟩ := error
          simp_all [Step.spellings]
        · simp [first] at leads
    | ok found =>
      rw [ih]
      constructor
      · rintro ⟨front, failing, reached, fails, shown, named⟩
        refine ⟨next :: front, failing, reached, fails.later first, ?_, named⟩
        rw [shown, Step.spellings]
        simp [String.append_assoc]
      · rintro ⟨front, failing, reached, fails, shown, named⟩
        rcases fails.cons_cases with ⟨rfl, rfl, rfl, refuses⟩ | ⟨other, more, rfl, leads, fails⟩
        · simp [first] at refuses
        · obtain rfl : found = other := by simpa [first] using leads
          refine ⟨more, failing, reached, fails, ?_, named⟩
          rw [shown, Step.spellings]
          simp [String.append_assoc]

/-! ## Segments in groups -/

theorem resolve_chain (base : Expr) (steps : List Step) (object : Object) :
    resolve (.chain base steps) object =
      (resolve base object).bind (walk base.spelling steps) := rfl

/-- A chain on a chain is the chain of all segments, with the same errors. It leads to where the
segments of the second group lead from the object of the first. It fails if the first group does, or at
the first segment of the second group that fails, and then the path goes through both groups. -/
theorem resolve_chain_append (base : Expr) (front back : List Step) (root : Object) :
    resolve (.chain (.chain base front) back) root = resolve (.chain base (front ++ back)) root ∧
      (∀ found, resolve (.chain base (front ++ back)) root = .ok found ↔
        ∃ middle, resolve (.chain base front) root = .ok middle ∧
          back.foldlM step middle = .ok found) ∧
      ∀ error, resolve (.chain base (front ++ back)) root = .error error ↔
        resolve (.chain base front) root = .error error ∨
          ∃ middle before failing reached, resolve (.chain base front) root = .ok middle ∧
            FailsAt middle back before failing reached error.reason ∧
            error.path = (Expr.chain base (front ++ before)).spelling ∧
            error.segment = failing.spelling := by
  have grouped : resolve (.chain (.chain base front) back) root =
      resolve (.chain base (front ++ back)) root := by
    rw [resolve_chain, resolve_chain, resolve_chain, Expr.spelling]
    cases resolve base root with
    | error error => rfl
    | ok found => exact (walk_append base.spelling front back found).symm
  refine ⟨grouped, fun found => ?_, fun error => ?_⟩ <;> rw [← grouped, resolve_chain]
  · cases resolve (.chain base front) root with
    | error error => simp [Except.bind]
    | ok middle => simp [Except.bind, walk_eq_ok_iff]
  · cases resolve (.chain base front) root with
    | error error => simp [Except.bind]
    | ok middle =>
      simp [Except.bind, walk_eq_error_iff, Expr.spelling, Step.spellings_append,
        String.append_assoc]

/-! ## Replaying a path -/

/-- Where a segment is answered, the one that is read from its spelling gets the same answer: an index
asks for an attribute and a key first. -/
theorem step_shown {next : Step} (answered : step object next = .ok found) :
    step object next.shown = .ok found := by
  cases next with
  | index digits => exact answered
  | key name =>
    rw [Step.shown, Format.stepOfBare]
    split
    · cases entry : answer? object name with
      | none => simp [step, entry] at answered
      | some other => simpa [step, entry] using answered
    · exact answered

theorem foldlM_step_shown (leads : steps.foldlM step object = .ok found) :
    (steps.map Step.shown).foldlM step object = .ok found := by
  induction steps generalizing object with
  | nil => exact leads
  | cons next steps ih =>
    obtain ⟨reached, first, others⟩ := (foldlM_step_cons next).mp leads
    exact (foldlM_step_cons _).mpr ⟨reached, step_shown first, ih others⟩

/-- If an expression of a format fails, it fails at the first of its segments that the object reached by
then refuses, and the segments after it have no part in the error. The path of the error is, after an
ampersand, a format of one value, and this value is the object that refused the segment. -/
theorem resolve_replay {format : String} {template : Template}
    (compiled : Template.compile format = .ok template) {expr : Expr}
    (member : expr ∈ template.expressions) {root : Object} {error : LookupError}
    (fails : resolve expr root = .error error) :
    ∃ front failing back reached,
      expr = .chain .current (front ++ failing :: back) ∧
      front.foldlM step root = .ok reached ∧ step reached failing = .error error.reason ∧
      error.segment = failing.spelling ∧
      (∃ source, Template.compile ("&" ++ error.path) = .ok ⟨[.value source]⟩ ∧
        resolve source root = .ok reached) ∧
      ∀ others, resolve (.chain .current (front ++ failing :: others)) root = .error error := by
  have shaped := Template.wellShaped_of_mem_expressions compiled member
  cases expr with
  | literal text => cases fails
  | current => cases fails
  | chain base steps =>
    obtain ⟨rfl, -, shaped⟩ := shaped
    obtain ⟨front, failing, reached, ⟨⟨back, rfl⟩, leads, refuses⟩, path, segment⟩ :=
      walk_eq_error_iff.mp fails
    have source : (Expr.ofSteps front).IsSource :=
      Format.Grammar.isSource_ofSteps fun step before => shaped step (by simp [before])
    have read := Template.compile_ampersand_spelling source.wellShaped
    rw [Expr.spelling_ofSteps, Expr.shown_ofSteps, Format.nodeOfExpr_ofSteps] at read
    refine ⟨front, failing, back, reached, rfl, leads, refuses, segment,
      ⟨.ofSteps (front.map Step.shown), ?_, ?_⟩, fun others => ?_⟩
    · rw [path]
      exact read
    · rw [resolve_ofSteps, walk_eq_ok_iff]
      exact foldlM_step_shown leads
    · exact walk_eq_error_iff.mpr
        ⟨front, failing, reached, ⟨⟨others, rfl⟩, leads, refuses⟩, path, segment⟩

/-- A path through a key of digits, which is an index when the path is compiled, and a failing key that is
spelled in quotes. -/
theorem resolve_replay_of_digits :
    let expr : Expr := .chain .current [.key "a", .key "0", .key "b c", .key "d"]
    let inner := Object.sequence [.plain "e"] ""
    let root := Object.mapping [("a", .mapping [("0", inner)] "")] ""
    let error : LookupError := ⟨"?.a.0", "\"b c\"", .notDigits⟩
    Template.compile "&.a.\"0\".\"b c\".d" = .ok ⟨[.value expr]⟩ ∧
      expr ∈ Template.expressions ⟨[.value expr]⟩ ∧
      resolve expr root = .error error ∧
      ∃ front failing back reached,
        expr = .chain .current (front ++ failing :: back) ∧
        front.foldlM step root = .ok reached ∧ step reached failing = .error error.reason ∧
        error.segment = failing.spelling ∧
        (∃ source, Template.compile ("&" ++ error.path) = .ok ⟨[.value source]⟩ ∧
          resolve source root = .ok reached) ∧
        ∀ others, resolve (.chain .current (front ++ failing :: others)) root = .error error := by
  intro expr inner root error
  have compiled : Template.compile "&.a.\"0\".\"b c\".d" = .ok ⟨[.value expr]⟩ := by rfl
  have member : expr ∈ Template.expressions ⟨[.value expr]⟩ := by decide
  have fails : resolve expr root = .error error := by rfl
  exact ⟨compiled, member, fails, resolve_replay compiled member fails⟩

end XmlTemplate.Render
