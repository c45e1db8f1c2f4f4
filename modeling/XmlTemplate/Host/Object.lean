/-!
# Objects

Rendering sees host data only through objects. An object has a text, says which kinds of access it
supports, and answers each kind. Its answers may be anything: that only declared kinds of access
are used is the rule of whoever asks.
-/

namespace XmlTemplate

/-- The kinds of access that an object supports. -/
structure Capabilities where
  attributes : Bool
  keys : Bool
  sequence : Bool
  pairs : Bool
  deriving DecidableEq, Repr

namespace Capabilities

/-- Text only. -/
def none : Capabilities := ⟨false, false, false, false⟩

/-- Named attributes that can be enumerated as pairs. -/
def record : Capabilities := ⟨true, false, false, true⟩

/-- Keys that can be enumerated as pairs. -/
def mapping : Capabilities := ⟨false, true, false, true⟩

/-- Items in order. -/
def ordered : Capabilities := ⟨false, false, true, false⟩

/-- No kind of access is supported. -/
def isEmpty (caps : Capabilities) : Bool :=
  !caps.attributes && !caps.keys && !caps.sequence && !caps.pairs

end Capabilities

/-- What rendering sees of host data. -/
structure Object where
  capabilities : Capabilities
  /-- The attribute of a name. -/
  attribute? : String → Option Object
  /-- The value of a key. -/
  key? : String → Option Object
  /-- The item at a position, counted from zero. -/
  item? : Nat → Option Object
  /-- The items in order. -/
  items : List Object
  /-- The keys with their values, in the order of the collection. -/
  pairs : List (Object × Object)
  /-- The object as a number of repetitions. -/
  count? : Option Nat
  /-- The object as text. -/
  text : String

namespace Object

/-- An object that has a text only. -/
def plain (text : String) : Object :=
  ⟨.none, fun _ => none, fun _ => none, fun _ => none, [], [], none, text⟩

/-- An object with a text that can also count repetitions. -/
def counting (count? : Option Nat) (text : String) : Object :=
  ⟨.none, fun _ => none, fun _ => none, fun _ => none, [], [], count?, text⟩

/-- A natural number. -/
def ofNat (n : Nat) : Object := counting (some n) (toString n)

/-- Items in order. -/
def sequence (items : List Object) (text : String) : Object :=
  ⟨.ordered, fun _ => none, fun _ => none, fun i => items[i]?, items, [], none, text⟩

/-- A key and its value, as a sequence of two items. -/
def pair (key value : Object) : Object :=
  sequence [key, value] (key.text ++ "=" ++ value.text)

/-- The value of the first entry with a name. -/
def find (entries : List (String × Object)) (name : String) : Option Object :=
  (entries.find? fun entry => entry.1 == name).map Prod.snd

/-- The entries with their names as objects. -/
def namedPairs (entries : List (String × Object)) : List (Object × Object) :=
  entries.map fun entry => (plain entry.1, entry.2)

/-- Values under keys. -/
def mapping (entries : List (String × Object)) (text : String) : Object :=
  ⟨.mapping, fun _ => none, find entries, fun _ => none, [], namedPairs entries, none, text⟩

/-- Values under attribute names. -/
def record (entries : List (String × Object)) (text : String) : Object :=
  ⟨.record, find entries, fun _ => none, fun _ => none, [], namedPairs entries, none, text⟩

end Object

end XmlTemplate
