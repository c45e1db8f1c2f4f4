import XmlTemplate.Text.Quoted

/-!
# Names

Tag and attribute names follow the production Name of XML 1.0, except that a name must not start
with a colon. Tag names that start with `xml`, in any case, are reserved.

Results:
1. `checkName_eq_ok_iff`: the names that pass.
-/

namespace XmlTemplate.Xml

/-- The code points that may start a name. -/
def nameStarts : Text.Ranges :=
  [(0x3A, 0x3A), (0x5F, 0x5F), (0x41, 0x5A), (0x61, 0x7A), (0xC0, 0xD6), (0xD8, 0xF6),
    (0xF8, 0x2FF), (0x370, 0x37D), (0x37F, 0x1FFF), (0x200C, 0x200D), (0x2070, 0x218F),
    (0x2C00, 0x2FEF), (0x3001, 0xD7FF), (0xF900, 0xFDCF), (0xFDF0, 0xFFFD), (0x10000, 0xEFFFF)]

/-- The further code points that may follow in a name: a hyphen, a dot, digits and extenders. -/
def nameExtras : Text.Ranges :=
  [(0x2D, 0x2D), (0x2E, 0x2E), (0x30, 0x39), (0xB7, 0xB7), (0x300, 0x36F), (0x203F, 0x2040)]

/-- A character that may start a name; the colon may only follow. -/
def isNameStart (c : Char) : Bool := nameStarts.contains c && c != ':'

/-- A character that may stand in a name after its first. -/
def isNameChar (c : Char) : Bool := nameStarts.contains c || nameExtras.contains c

/-- Why a text is no name. -/
inductive NameError where
  | empty
  | badStart (c : Char)
  | badChar (c : Char)
  /-- A tag name that starts with `xml`. -/
  | reserved
  deriving DecidableEq, Repr

/-- The reason as messages show it. -/
def NameError.message : NameError → String
  | .empty => "name must not be empty"
  | .badStart c => "name must not start with " ++ Text.quotedChar c
  | .badChar c => "name contains invalid character " ++ Text.quotedChar c
  | .reserved => "tag name must not start with \"xml\""

/-- The first fault of a name, from left to right. -/
def checkChars : List Char → Except NameError Unit
  | [] => .error .empty
  | first :: rest =>
    if isNameStart first then
      match rest.find? fun c => !isNameChar c with
      | some c => .error (.badChar c)
      | none => .ok ()
    else .error (.badStart first)

/-- The first fault of a text as a name. -/
def checkName (name : String) : Except NameError Unit := checkChars name.toList

/-- The text starts with `xml` in upper or lower case letters. -/
def isReserved : List Char → Bool
  | x :: m :: l :: _ => (x == 'x' || x == 'X') && (m == 'm' || m == 'M') && (l == 'l' || l == 'L')
  | _ => false

/-- The first fault of a text as a tag name. -/
def checkTag (name : String) : Except NameError Unit := do
  checkName name
  if isReserved name.toList then throw .reserved

/-- The first fault of a text as an attribute name. -/
def checkAttribute (name : String) : Except NameError Unit := checkName name

theorem checkName_eq_ok_iff {name : String} :
    checkName name = .ok () ↔
      ∃ first rest, name.toList = first :: rest ∧ isNameStart first = true ∧
        ∀ c ∈ rest, isNameChar c = true := by
  rw [checkName]
  cases spelled : name.toList with
  | nil => simp [checkChars]
  | cons first rest =>
    cases starts : isNameStart first with
    | false => simp [checkChars, starts]
    | true =>
      cases found : rest.find? fun c => !isNameChar c with
      | none =>
        have follow : ∀ c ∈ rest, isNameChar c = true := by
          simpa using List.find?_eq_none.mp found
        rw [checkChars, if_pos starts, found]
        exact ⟨fun _ => ⟨first, rest, rfl, starts, follow⟩, fun _ => rfl⟩
      | some c =>
        have bad : isNameChar c = false := by simpa using List.find?_some found
        have here : c ∈ rest := List.mem_of_find?_eq_some found
        rw [checkChars, if_pos starts, found]
        refine ⟨nofun, ?_⟩
        rintro ⟨first, rest, same, -, follow⟩
        cases same
        rw [follow c here] at bad
        cases bad

end XmlTemplate.Xml
