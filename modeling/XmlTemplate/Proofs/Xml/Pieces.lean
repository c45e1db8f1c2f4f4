import XmlTemplate.Proofs.Result
import XmlTemplate.Proofs.Xml.Reread
import XmlTemplate.Xml.Prolog

/-!
# Every text is read to a result

What is left after a piece is the end of the text, and at least one character shorter. So reading
piece by piece comes to a result on every text, malformed or not, and a text in front of it that is
read without opening an element does not change the result. The declaration of a document is such a
text: its instruction ends at the first place where `?>` stands.

Results:
1. `suffix_of_readPiece`: what is left after a piece.
2. `exists_ends`: reading comes to a result.
3. `checkWellFormed_append`: a text without elements in front of another one.
4. `passes_declaration`: the declaration is read as one piece, whatever else its encoding says.
-/

namespace XmlTemplate.Xml

/-! ## What is left after a piece -/

variable {text rest : List Char}

theorem suffix_of_after? {mark : List Char} (found : after? mark text = some rest) : rest <:+ text := by
  fun_induction after? mark text with
  | case1 => cases found
  | case2 c text here =>
    cases found
    exact List.drop_suffix ..
  | case3 c text other ih => exact (ih found).trans (List.suffix_cons c text)

theorem suffix_of_splitTag {quote? : Option Char} {tag : List Char}
    (split : splitTag quote? text = .ok (tag, rest)) : rest <:+ text := by
  fun_induction splitTag quote? text generalizing tag with
  | case1 | case2 => cases split
  | case3 c text quote ih | case5 c text other ih =>
    obtain ⟨⟨inside, left⟩, later, same⟩ := Result.map_eq_ok.mp split
    cases same
    exact (ih later).trans (List.suffix_cons c text)
  | case4 text =>
    cases split
    exact List.suffix_cons ..

theorem suffix_of_readReference (read : readReference text = .ok rest) : rest <:+ text := by
  fun_induction readReference text with
  | case1 | case3 => cases read
  | case2 text =>
    cases read
    exact List.suffix_cons ..
  | case4 c text _ _ ih => exact (ih read).trans (List.suffix_cons c text)

theorem suffix_of_afterDoctype? {zone : Zone} (found : afterDoctype? zone text = some rest) :
    rest <:+ text := by
  have step (front : List Char) {text : List Char} (later : rest <:+ text) : rest <:+ front ++ text :=
    later.trans (List.suffix_append front text)
  fun_induction afterDoctype? zone text with
  | case1 => cases found
  | case2 text | case18 text =>
    cases found
    exact List.suffix_cons ..
  -- two zones open and two zones end with more than one character
  | case6 text ih => exact step "<!--".toList (ih found)
  | case7 text ih => exact step "<?".toList (ih found)
  | case14 text ih => exact step "-->".toList (ih found)
  | case16 text ih => exact step "?>".toList (ih found)
  | case3 text ih | case5 text ih | case10 text ih | case12 text ih => exact step [_] (ih found)
  | case13 c text _ ih | case15 c text _ ih | case17 c text _ ih | case19 c text _ ih =>
    exact step [c] (ih found)
  | case4 quote? c text _ _ ih => exact step [c] (ih found)
  | case8 text _ _ ih => exact step [_] (ih found)
  | case9 c text _ _ _ _ ih => exact step [c] (ih found)
  | case11 quote? c text _ ih => exact step [c] (ih found)

theorem suffix_of_readDeclaration (read : readDeclaration text = .ok rest) : rest <:+ text := by
  unfold readDeclaration at read
  split at read
  · split at read
    · split at read
      · rename_i found
        cases read
        exact (suffix_of_after? found).trans (List.drop_suffix ..)
      · cases read
    · cases read
  · split at read
    · split at read
      · rename_i found
        cases read
        exact (suffix_of_after? found).trans (List.drop_suffix ..)
      · cases read
    · cases read
  · split at read
    · split at read
      · rename_i found
        split at read
        · split at read
          · cases read
          · cases read
            exact suffix_of_afterDoctype? found
        · cases read
      · cases read
    · cases read
  · cases read

theorem suffix_of_readInstruction (read : readInstruction text = .ok rest) : rest <:+ text := by
  unfold readInstruction at read
  simp only at read
  split at read
  · rename_i found
    cases read
    split at found
    · cases found
    · exact suffix_of_after? found
  · cases read

/-- After a piece the end of the text is left, without the first character at least. -/
theorem suffix_of_readPiece {progress next : Progress}
    (read : readPiece progress text = .ok (next, rest)) : rest <:+ text.tail := by
  unfold readPiece at read
  split at read
  · split at read
    · rename_i found
      cases read
      exact (suffix_of_readDeclaration found).trans (List.suffix_cons ..)
    · cases read
  · split at read
    · rename_i found
      cases read
      exact (suffix_of_readInstruction found).trans (List.suffix_cons ..)
    · cases read
  · split at read
    · rename_i found
      split at read
      · cases read
        exact (suffix_of_splitTag found).trans (List.suffix_cons ..)
      · cases read
    · cases read
  · split at read
    · rename_i found
      split at read
      · cases read
        exact suffix_of_splitTag found
      · cases read
    · cases read
  · split at read
    · rename_i found
      cases read
      exact suffix_of_readReference found
    · cases read
  · cases read
    exact List.suffix_refl _
  · cases read
    exact List.suffix_refl _

/-! ## Results -/

/-- Reading piece by piece comes to a result. -/
theorem exists_ends (progress : Progress) (text : List Char) : ∃ result, Ends progress text result := by
  match text with
  | [] => exact ⟨_, .done progress⟩
  | c :: text =>
    cases read : readPiece progress (c :: text) with
    | error error => exact ⟨_, .fault read⟩
    | ok reached =>
      obtain ⟨next, rest⟩ := reached
      have shorter : rest.length ≤ text.length := (suffix_of_readPiece read).length_le
      obtain ⟨result, ends⟩ := exists_ends next rest
      exact ⟨result, .piece read shorter ends⟩
termination_by text.length

/-- A text that is read without an element in front of another one does not change the result. -/
theorem checkWellFormed_append {front : String} (passes : Passes front.toList 0) (body : String) :
    checkWellFormed (front ++ body) = checkWellFormed body := by
  obtain ⟨result, ends⟩ := exists_ends ⟨[], 0⟩ body.toList
  have whole : Ends ⟨[], 0⟩ (front ++ body).toList result := by
    rw [String.toList_append]
    exact passes [] 0 _ _ ends
  rw [checkWellFormed, checkWellFormed, readPieces_dropMark whole, readPieces_dropMark ends]

/-! ## The declaration -/

/-- The two signs that end an instruction. -/
def instructionEnd : List Char := ['?', '>']

/-- An instruction ends at the first place where its end stands. -/
theorem after?_instructionEnd {inside : List Char} (free : ¬ instructionEnd <:+: inside)
    (rest : List Char) : after? instructionEnd (inside ++ (instructionEnd ++ rest)) = some rest := by
  induction inside with
  | nil => rfl
  | cons c inside ih =>
    rw [List.infix_cons_iff, not_or] at free
    obtain ⟨here, later⟩ := free
    have other : ¬ instructionEnd <+: c :: (inside ++ (instructionEnd ++ rest)) := by
      intro starts
      obtain ⟨rfl, next⟩ := List.cons_prefix_cons.mp starts
      cases inside with
      | nil => cases (List.cons_prefix_cons.mp next).1
      | cons d inside =>
        obtain ⟨rfl, -⟩ := List.cons_prefix_cons.mp next
        exact here ⟨inside, rfl⟩
    rw [List.cons_append, after?, if_neg (mt List.isPrefixOf_iff_prefix.mp other)]
    exact ih later

theorem readInstruction_closed {inside : List Char} (free : ¬ instructionEnd <:+: inside)
    (other : inside.head? ≠ some '>') (rest : List Char) :
    readInstruction (inside ++ (instructionEnd ++ rest)) = .ok rest := by
  have mark : "?>".toList = instructionEnd := by decide +kernel
  have found := after?_instructionEnd free rest
  unfold readInstruction
  rw [mark]
  split
  · rename_i starts
    cases inside with
    | nil => cases starts
    | cons c inside =>
      cases starts
      exact absurd rfl other
  · rw [found]

/-- The end of an instruction stands in neither of two texts, and not across them. -/
theorem instructionEnd_free_append {front back : List Char} (one : ¬ instructionEnd <:+: front)
    (two : ¬ instructionEnd <:+: back)
    (seam : front.getLast? = some '?' → back.head? ≠ some '>') :
    ¬ instructionEnd <:+: front ++ back := by
  induction front with
  | nil => exact two
  | cons c front ih =>
    rw [List.infix_cons_iff, not_or] at one
    obtain ⟨here, later⟩ := one
    rw [List.cons_append, List.infix_cons_iff]
    rintro (starts | inside)
    · obtain ⟨rfl, next⟩ := List.cons_prefix_cons.mp starts
      cases front with
      | nil =>
        obtain ⟨rest, rfl⟩ := next
        exact seam rfl rfl
      | cons d front =>
        obtain ⟨rfl, -⟩ := List.cons_prefix_cons.mp next
        exact here ⟨front, rfl⟩
    · refine ih later (fun last => seam ?_) inside
      rw [List.getLast?_cons, last]
      rfl

/-- A declaration between its first two signs and its encoding. -/
def declarationStart : List Char := "xml version=\"1.0\" encoding=\"".toList

theorem toList_declaration (encoding : String) :
    (declaration encoding).toList =
      '<' :: '?' :: (declarationStart ++ (encoding.toList ++ ['"']) ++ instructionEnd) := by
  have front : "<?xml version=\"1.0\" encoding=\"".toList = '<' :: '?' :: declarationStart := by
    decide +kernel
  have back : "\"?>".toList = '"' :: instructionEnd := by decide +kernel
  unfold declaration
  rw [String.toList_append, String.toList_append, front, back]
  simp only [List.append_assoc, List.cons_append, List.nil_append]

/-- The declaration is read as one piece, whatever its encoding is, unless this has the end of an
instruction in it. -/
theorem passes_declaration {encoding : String} (free : ¬ instructionEnd <:+: encoding.toList) :
    Passes (declaration encoding).toList 0 := by
  have quoted : ¬ instructionEnd <:+: encoding.toList ++ ['"'] :=
    instructionEnd_free_append free (by decide) fun _ => by decide
  have start : ¬ instructionEnd <:+: declarationStart := by decide +kernel
  have first : declarationStart.head? = some 'x' := by decide +kernel
  have last : declarationStart.getLast? = some '"' := by decide +kernel
  have inside : ¬ instructionEnd <:+: declarationStart ++ (encoding.toList ++ ['"']) :=
    instructionEnd_free_append start quoted fun question => by simp [last] at question
  have other : (declarationStart ++ (encoding.toList ++ ['"'])).head? ≠ some '>' := by
    rw [List.head?_append, first, Option.some_or]
    decide
  rw [toList_declaration]
  refine passes_of_readPiece fun progress rest => ?_
  rw [List.cons_append, List.append_assoc _ instructionEnd rest, readPiece,
    readInstruction_closed inside other]

end XmlTemplate.Xml
