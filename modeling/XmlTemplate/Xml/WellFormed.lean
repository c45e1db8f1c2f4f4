import XmlTemplate.Xml.Attributes

/-!
# Well-formed documents

A document is read piece by piece: character data, references, comments, declarations, instructions
and tags. Each end tag has to name the last open element, the attributes of each start tag are read,
and at the end no element may be open. The first error ends the reading. The pieces stand for the events
of the reader of quick-xml as it is configured by default, and follow its rules for where each of them
ends, for spaces in end tags, for a byte order mark and for what is an error. It is not a validating
reader: entities are not looked up, and several elements may stand at the top.

Results:
1. `readPiece_character`: character data needs no reading.
2. `closeElement_open`: an end tag closes the last open element of its name.
-/

namespace XmlTemplate.Xml

/-- The names of the open elements, the last one first, and the number of elements so far. -/
structure Progress where
  openNames : List (List Char)
  elements : Nat
  deriving DecidableEq, Repr

/-! ## Ends of pieces -/

/-- The characters after the first place where `mark` stands. -/
def after? (mark : List Char) : List Char → Option (List Char)
  | [] => none
  | c :: text => if mark.isPrefixOf (c :: text) then some ((c :: text).drop mark.length)
    else after? mark text

/-- What stands before the closing sign of a tag and what stands after it. Inside quotes the sign
does not close. -/
def splitTag (quote? : Option Char) : List Char → Except Malformed (List Char × List Char)
  | [] =>
    match quote? with
    | some quote => .error (.openValue quote)
    | none => .error .openTag
  | c :: text =>
    match quote? with
    | some quote =>
      (splitTag (if c = quote then none else some quote) text).map fun (tag, rest) =>
        (c :: tag, rest)
    | none =>
      if c = '>' then .ok ([], text)
      else
        (splitTag (if isQuote c then some c else none) text).map fun (tag, rest) =>
          (c :: tag, rest)

/-- Where in a document type declaration a character stands. -/
inductive Zone where
  /-- Before the square brackets, perhaps in a quoted text. -/
  | front (quote? : Option Char)
  /-- Between the declarations inside the square brackets. -/
  | subset
  /-- In a declaration whose texts are quoted, perhaps in such a text. -/
  | quoting (quote? : Option Char)
  /-- In a declaration where quotes have no meaning. -/
  | plain
  | comment
  | instruction
  /-- After the square brackets. -/
  | back
  deriving DecidableEq, Repr

/-- The quote that is open after a character. -/
def quoteAfter (quote? : Option Char) (c : Char) : Option Char :=
  match quote? with
  | some quote => if c = quote then none else some quote
  | none => if isQuote c then some c else none

/-- The words that open a declaration with quoted texts. -/
def quotingWords : List (List Char) :=
  ["!ATTLIST".toList, "!ENTITY".toList, "!NOTATION".toList]

/-- The zone that a declaration opens, from the text after its `<`. -/
def declarationZone (text : List Char) : Zone :=
  if quotingWords.any fun word => word.isPrefixOf text then .quoting none else .plain

/-- The characters after the end of a document type declaration. -/
def afterDoctype? : Zone → List Char → Option (List Char)
  | _, [] => none
  | .front none, '>' :: text => some text
  | .front none, '[' :: text => afterDoctype? .subset text
  | .front quote?, c :: text => afterDoctype? (.front (quoteAfter quote? c)) text
  | .subset, ']' :: text => afterDoctype? .back text
  | .subset, '<' :: '!' :: '-' :: '-' :: text => afterDoctype? .comment text
  | .subset, '<' :: '?' :: text => afterDoctype? .instruction text
  | .subset, '<' :: text => afterDoctype? (declarationZone text) text
  | .subset, _ :: text => afterDoctype? .subset text
  | .quoting none, '>' :: text => afterDoctype? .subset text
  | .quoting quote?, c :: text => afterDoctype? (.quoting (quoteAfter quote? c)) text
  | .plain, '>' :: text => afterDoctype? .subset text
  | .plain, _ :: text => afterDoctype? .plain text
  | .comment, '-' :: '-' :: '>' :: text => afterDoctype? .subset text
  | .comment, _ :: text => afterDoctype? .comment text
  | .instruction, '?' :: '>' :: text => afterDoctype? .subset text
  | .instruction, _ :: text => afterDoctype? .instruction text
  | .back, '>' :: text => some text
  | .back, _ :: text => afterDoctype? .back text

example : afterDoctype? (.front none) "a 'x>' [<!ENTITY b '>'>]>c".toList = some ['c'] := by
  decide +kernel

example : afterDoctype? (.front none) "a [<!ELEMENT b 'c>] d'>e".toList = some ['e'] := by
  decide +kernel

/-! ## Pieces -/

/-- A reference after its ampersand: the next semicolon closes it unless another piece starts
before. -/
def readReference : List Char → Except Malformed (List Char)
  | [] => .error .openReference
  | ';' :: text => .ok text
  | c :: text => if c = '&' || c = '<' then .error .openReference else readReference text

/-- The word that opens a document type declaration, in any case. -/
def startsDoctype (text : List Char) : Bool :=
  (text.take 7).map Char.toUpper == "DOCTYPE".toList

/-- A comment, a section of character data or a document type declaration after `<!`. -/
def readDeclaration (text : List Char) : Except Malformed (List Char) :=
  match text with
  | '-' :: _ =>
    if "--".toList.isPrefixOf text then
      match after? "-->".toList (text.drop 2) with
      | some rest => .ok rest
      | none => .error .openComment
    else .error .openComment
  | '[' :: _ =>
    if "[CDATA[".toList.isPrefixOf text then
      match after? "]]>".toList (text.drop 7) with
      | some rest => .ok rest
      | none => .error .openCharacterData
    else .error .openCharacterData
  | c :: _ =>
    if c = 'D' || c = 'd' then
      match afterDoctype? (.front none) text with
      | some rest =>
        if startsDoctype text then
          match (text.drop 7).dropWhile isSpace with
          | '>' :: _ => .error .noDoctypeName
          | _ => .ok rest
        else .error .openDoctype
      | none => .error .openDoctype
    else .error .unknownMarkup
  | [] => .error .unknownMarkup

/-- The text after `<?` is that of an XML declaration. -/
def isDeclaration : List Char → Bool
  | 'x' :: 'm' :: 'l' :: [] => true
  | 'x' :: 'm' :: 'l' :: c :: _ => isSpace c || c == '?'
  | _ => false

/-- An instruction or an XML declaration after `<?`. -/
def readInstruction (text : List Char) : Except Malformed (List Char) :=
  let rest? := match text with
    | '>' :: _ => none
    | text => after? "?>".toList text
  match rest? with
  | some rest => .ok rest
  | none => .error (if isDeclaration text then .openDeclaration else .openInstruction)

/-- The characters without the spaces at their end. -/
def trimEnd (text : List Char) : List Char := (text.reverse.dropWhile isSpace).reverse

/-- The name that an end tag closes. Spaces at its end do not count unless there is nothing else. -/
def endName (tag : List Char) : List Char := if tag.all isSpace then tag else trimEnd tag

/-- An end tag closes the last open element, which has to have its name. -/
def closeElement (progress : Progress) (tag : List Char) : Except Malformed Progress :=
  match progress.openNames with
  | name :: names =>
    if name = endName tag then .ok { progress with openNames := names }
    else .error (.mismatch (String.ofList name) (String.ofList (endName tag)))
  | [] => .error (.unopened (String.ofList (endName tag)))

theorem closeElement_open {progress : Progress} {names : List (List Char)} {tag : List Char}
    (last : progress.openNames = endName tag :: names) :
    closeElement progress tag = .ok { progress with openNames := names } := by
  simp [closeElement, last]

/-- A start tag opens an element; one that ends with a slash closes it at once. -/
def openElement (progress : Progress) (tag : List Char) : Except AttributeError Progress :=
  if tag.getLast? = some '/' then do
    checkAttributes tag.dropLast
    return { progress with elements := progress.elements + 1 }
  else do
    checkAttributes tag
    let name := tag.takeWhile fun c => !isSpace c
    return ⟨name :: progress.openNames, progress.elements + 1⟩

/-- One piece at the front of the text, and the characters after it. -/
def readPiece (progress : Progress) : List Char → Except XmlError (Progress × List Char)
  | '<' :: '!' :: text =>
    match readDeclaration text with
    | .ok rest => .ok (progress, rest)
    | .error cause => .error (.malformed cause)
  | '<' :: '?' :: text =>
    match readInstruction text with
    | .ok rest => .ok (progress, rest)
    | .error cause => .error (.malformed cause)
  | '<' :: '/' :: text =>
    match splitTag none text with
    | .ok (tag, rest) =>
      match closeElement progress tag with
      | .ok progress => .ok (progress, rest)
      | .error cause => .error (.malformed cause)
    | .error cause => .error (.malformed cause)
  | '<' :: text =>
    match splitTag none text with
    | .ok (tag, rest) =>
      match openElement progress tag with
      | .ok progress => .ok (progress, rest)
      | .error cause => .error (.attributes cause)
    | .error cause => .error (.malformed cause)
  | '&' :: text =>
    match readReference text with
    | .ok rest => .ok (progress, rest)
    | .error cause => .error (.malformed cause)
  | _ :: text => .ok (progress, text)
  | [] => .ok (progress, [])

theorem readPiece_character {c : Char} (data : c ≠ '<') (plain : c ≠ '&') (progress : Progress)
    (text : List Char) : readPiece progress (c :: text) = .ok (progress, text) := by
  unfold readPiece
  split <;> simp_all

/-! ## Documents -/

/-- The pieces of a text one after another, at most as many as characters in `bound`. -/
def readPieces : (bound : List Char) → Progress → List Char → Except XmlError Progress
  | _, progress, [] => .ok progress
  | [], progress, _ :: _ => .ok progress
  | _ :: bound, progress, c :: text =>
    match readPiece progress (c :: text) with
    | .ok (progress, rest) => readPieces bound progress rest
    | .error error => .error error

/-- The characters after a byte order mark. -/
def dropMark : List Char → List Char
  | c :: text => if c = Char.ofNat 0xFEFF then text else c :: text
  | [] => []

/-- The number of elements of a well-formed document, or its first error. -/
def checkWellFormed (xml : String) : Except XmlError Nat :=
  let text := dropMark xml.toList
  match readPieces text ⟨[], 0⟩ text with
  | .ok ⟨[], elements⟩ => .ok elements
  | .ok ⟨names, _⟩ => .error (.unclosed names.length)
  | .error error => .error error

end XmlTemplate.Xml
