import XmlTemplate.Xml.Error

/-!
# Attributes of a tag

The attributes of a tag are keys with quoted values. A key runs up to an equals sign or a space and
stands once. Offsets count bytes. The definitions stand for the attributes that quick-xml reads from a
tag with its checks on, and follow its rules for where a key and a value end, for which fault of an
attribute comes first, and for the offset of each.
-/

namespace XmlTemplate.Xml

/-- The four spaces of XML. -/
def isSpace (c : Char) : Bool := c == ' ' || c == '\t' || c == '\r' || c == '\n'

/-- One of the two quotes around values. -/
def isQuote (c : Char) : Bool := c == '"' || c == Char.ofNat 39

/-- The number of bytes of characters. -/
def byteLength (text : List Char) : Nat := text.foldr (fun c bytes => c.utf8Size + bytes) 0

/-- A key goes on. -/
def isKeyChar (c : Char) : Bool := c != '=' && !isSpace c

/-- The rest of a value after its opening quote, as the value and the characters after its closing
quote. -/
def splitValue? (quote : Char) : List Char → Option (List Char × List Char)
  | [] => none
  | c :: text =>
    if c = quote then some ([], text)
    else (splitValue? quote text).map fun (value, rest) => (c :: value, rest)

/-- The attributes from `offset` on, with the keys before them and their offsets. The tag ends at
the offset `stop`, and there are at most as many attributes as characters in `bound`. -/
def checkKeys (stop : Nat) : (bound : List Char) → (seen : List (List Char × Nat)) →
    (offset : Nat) → List Char → Except AttributeError Unit
  | [], _, _, _ => .ok ()
  | _ :: bound, seen, offset, text =>
    let start := offset + byteLength (text.takeWhile isSpace)
    match text.dropWhile isSpace with
    | [] => .ok ()
    | first :: rest =>
      let key := first :: rest.takeWhile isKeyChar
      let rest := rest.dropWhile isKeyChar
      let equals := start + byteLength key + byteLength (rest.takeWhile isSpace)
      match rest.dropWhile isSpace with
      | [] => .error (.expectedEquals stop)
      | '=' :: rest =>
        match seen.find? fun entry => entry.1 == key with
        | some (_, before) => .error (.duplicated start before)
        | none =>
          let opening := equals + 1 + byteLength (rest.takeWhile isSpace)
          match rest.dropWhile isSpace with
          | [] => .error (.expectedValue stop)
          | quote :: rest =>
            if isQuote quote then
              match splitValue? quote rest with
              | some (value, rest) =>
                checkKeys stop bound (seen ++ [(key, start)]) (opening + 2 + byteLength value) rest
              | none => .error (.expectedQuote stop quote)
            else .error (.unquotedValue opening)
      | _ :: _ => .error (.expectedEquals equals)

/-- The attributes of a tag, given as what stands between its angle brackets. -/
def checkAttributes (tag : List Char) : Except AttributeError Unit :=
  let name := tag.takeWhile fun c => !isSpace c
  checkKeys (byteLength tag) tag [] (byteLength name) (tag.dropWhile fun c => !isSpace c)

end XmlTemplate.Xml
