import XmlTemplate.Render.Resolve
import XmlTemplate.Render.Sink
import XmlTemplate.Template.Basic
import XmlTemplate.Xml.Escape

/-!
# Rendering nodes

Nodes are written in order, each piece as soon as it is known, so everything before an error stands
in the sink. A tag is checked before anything of its element is written, and an attribute before
anything of the attribute.

Results:
1. `renderAll_cons`: nodes are rendered one after another.
2. `countUp_succ`: numbers are counted upward one by one.
-/

namespace XmlTemplate.Render

/-! ## Names and values -/

/-- The object that an expression gives, as an action that writes nothing. -/
def find (source : Expr) (object : Object) : Action Object :=
  match resolve source object with
  | .ok found => pure found
  | .error error => throw (.lookup error)

/-- The text that an expression gives as a tag name. -/
def tagName (name : Expr) (object : Object) : Action String := do
  let found ← find name object
  match Xml.checkTag found.text with
  | .ok () => return found.text
  | .error cause => throw (.invalidName .tag found.text cause)

/-- The text that an expression gives as an attribute name. -/
def attributeName (name : Expr) (object : Object) : Action String := do
  let found ← find name object
  match Xml.checkAttribute found.text with
  | .ok () => return found.text
  | .error cause => throw (.invalidName .attribute found.text cause)

/-! ## Elements -/

/-- An attribute with its value. -/
def emitAttribute (item : Attribute) (object : Object) : Action Unit := do
  let name ← attributeName item.name object
  let value ← find item.value object
  write (" " ++ name ++ "=\"" ++ Xml.escapeAttribute value.text ++ "\"")

/-- One element, with its tag and attributes read from `object` and `body` between its tags. -/
def emit (head : Head) (object : Object) (body : Action Unit) : Action Unit := do
  let tag ← tagName head.name object
  write ("<" ++ tag)
  head.attributes.forM fun item => emitAttribute item object
  write ">"
  body
  write ("</" ++ tag ++ ">")

/-- The action for each of `count` numbers from `start` on. -/
def countUp (action : Nat → Action Unit) : (count start : Nat) → Action Unit
  | 0, _ => pure ()
  | count + 1, start => do
    action start
    countUp action count (start + 1)

/-- A source that cannot be repeated over, with the sign that asked for it. -/
def unrepeatable (source : Expr) (sign : String) (reason : Reason) : RenderError :=
  .lookup ⟨source.spelling, sign, reason⟩

/-- The action for each item of an object: an item of a sequence, a pair of a mapping or a number
below a count. -/
def forItems (source : Expr) (items : Object) (action : Object → Action Unit) : Action Unit :=
  if items.capabilities.sequence then items.items.forM action
  else if items.capabilities.pairs then
    items.pairs.forM fun entry => action (.pair entry.1 entry.2)
  else
    match items.count? with
    | some count => countUp (fun n => action (.ofNat n)) count 0
    | none => throw (unrepeatable source "*" .notRepeatable)

/-- The two components of an item that is to be a pair. -/
def components? (item : Object) : Option (Object × Object) :=
  if item.capabilities.sequence then
    match item.item? 0, item.item? 1 with
    | some key, some value => some (key, value)
    | _, _ => none
  else none

/-- The action for each key and value of an object: the pairs of a mapping, or the items of a
sequence that are pairs themselves. -/
def forEntries (source : Expr) (entries : Object) (action : Object → Object → Action Unit) :
    Action Unit :=
  if entries.capabilities.pairs then entries.pairs.forM fun entry => action entry.1 entry.2
  else if entries.capabilities.sequence then
    entries.items.forM fun item =>
      match components? item with
      | some (key, value) => action key value
      | none => throw (unrepeatable source "~" .notPairs)
  else throw (unrepeatable source "~" .notMapping)

/-- The action for each object that an element is repeated for: the one that its head reads and the
one that its children read. -/
def forEach (repetition : Option Repetition) (object : Object)
    (action : Object → Object → Action Unit) : Action Unit :=
  match repetition with
  | none => action object object
  | some (.times count) => countUp (fun n => action (.ofNat n) (.ofNat n)) count 0
  | some (.items source) => do
    let items ← find source object
    forItems source items fun item => action item item
  | some (.entries source) => do
    let entries ← find source object
    forEntries source entries action

/-! ## Nodes -/

mutual
/-- A node is written for the object in scope. -/
def render : Node → Object → Action Unit
  | .element head children, object =>
    forEach head.repetition object fun front inner => emit head front (renderAll children inner)
  | .text text, _ => write (Xml.escapeText text)
  | .value source, object => do
    let found ← find source object
    write (Xml.escapeText found.text)
  | .scope source children, object => do
    let found ← find source object
    renderAll children found

/-- Nodes are written in order for the object in scope. -/
def renderAll : List Node → Object → Action Unit
  | [], _ => pure ()
  | node :: nodes, object => do
    render node object
    renderAll nodes object
end

@[simp] theorem renderAll_cons (node : Node) (nodes : List Node) (object : Object) :
    renderAll (node :: nodes) object =
      (do render node object; renderAll nodes object : Action Unit) := rfl

@[simp] theorem countUp_succ (action : Nat → Action Unit) (count start : Nat) :
    countUp action (count + 1) start =
      (do action start; countUp action count (start + 1) : Action Unit) := rfl

end XmlTemplate.Render

namespace XmlTemplate.Template

open Render (Sink RenderError renderAll Action)

/-- The template is written into a sink, and what was written before an error stays there. -/
def renderTo (template : Template) (root : Object) (sink : Sink) : Except RenderError Unit × Sink :=
  (renderAll template.nodes root).start sink

/-- The whole text of the template, or the error and no text. -/
def render (template : Template) (root : Object) : Except RenderError String :=
  match template.renderTo root (.unbounded "") with
  | (.ok (), sink) => .ok sink.text
  | (.error error, _) => .error error

end XmlTemplate.Template
