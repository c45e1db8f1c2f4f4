/-!
# Templates

A template is a list of nodes. Elements and scopes nest; expressions say what the names, values
and texts are read from when the template is rendered against an object.

Results:
1. `Node.depth_element`, `Node.depth_scope`: an element and a scope are one level deeper than
   their children.
-/

namespace XmlTemplate

/-- One dot segment of an expression. -/
inductive Step where
  /-- The name of an attribute or key. -/
  | key (name : String)
  /-- A run of digits, kept as written because a mapping may have it as a key. -/
  | index (digits : String)
  deriving DecidableEq, Repr

/-- What a name, a value or a text is read from. -/
inductive Expr where
  /-- A text of the template itself. -/
  | literal (text : String)
  /-- The object in scope. -/
  | current
  /-- The object reached from `base` by the segments, from left to right. -/
  | chain (base : Expr) (steps : List Step)
  deriving DecidableEq, Repr

/-- The object in scope, followed by the segments. -/
def Expr.ofSteps : List Step → Expr
  | [] => .current
  | step :: steps => .chain .current (step :: steps)

/-- How often an element is emitted, and for which objects. -/
inductive Repetition where
  /-- Once for each item of a sequence, for each pair of a mapping, or for each number below a
  count. -/
  | items (source : Expr)
  /-- Once for each entry: the tag and the attributes read the key, the children the value. -/
  | entries (source : Expr)
  /-- Once for each number below `count`. -/
  | times (count : Nat)
  deriving DecidableEq, Repr

/-- An attribute of an element. -/
structure Attribute where
  name : Expr
  value : Expr
  deriving DecidableEq, Repr

/-- Everything of an element but its children. -/
structure Head where
  name : Expr
  repetition : Option Repetition
  attributes : List Attribute
  deriving DecidableEq, Repr

/-- A node of a template. -/
inductive Node where
  | element (head : Head) (children : List Node)
  /-- A literal text. -/
  | text (text : String)
  /-- The text of an object. -/
  | value (source : Expr)
  /-- The children, read from the object that `source` gives. -/
  | scope (source : Expr) (children : List Node)
  deriving Repr

/-- A compiled format string. -/
structure Template where
  nodes : List Node
  deriving Repr

namespace Node

/-! ## Equality -/

mutual
/-- Equality of nodes is decided by comparing them from the top. -/
def decEq : (left right : Node) → Decidable (left = right)
  | .element head children, .element head' children' =>
    if same : head = head' then
      match decEqList children children' with
      | .isTrue equal => .isTrue (by rw [same, equal])
      | .isFalse differ => .isFalse (by simp [differ])
    else .isFalse (by simp [same])
  | .text words, .text words' => decidable_of_iff (words = words') (by simp)
  | .value source, .value source' => decidable_of_iff (source = source') (by simp)
  | .scope source children, .scope source' children' =>
    if same : source = source' then
      match decEqList children children' with
      | .isTrue equal => .isTrue (by rw [same, equal])
      | .isFalse differ => .isFalse (by simp [differ])
    else .isFalse (by simp [same])
  | .element .., .text _ | .element .., .value _ | .element .., .scope .. => .isFalse (by simp)
  | .text _, .element .. | .text _, .value _ | .text _, .scope .. => .isFalse (by simp)
  | .value _, .element .. | .value _, .text _ | .value _, .scope .. => .isFalse (by simp)
  | .scope .., .element .. | .scope .., .text _ | .scope .., .value _ => .isFalse (by simp)

/-- Equality of lists of nodes is decided item by item. -/
def decEqList : (left right : List Node) → Decidable (left = right)
  | [], [] => .isTrue rfl
  | [], _ :: _ | _ :: _, [] => .isFalse (by simp)
  | node :: nodes, node' :: nodes' =>
    match decEq node node' with
    | .isTrue same =>
      match decEqList nodes nodes' with
      | .isTrue equal => .isTrue (by rw [same, equal])
      | .isFalse differ => .isFalse (by simp [differ])
    | .isFalse differ => .isFalse (by simp [differ])
end

instance : DecidableEq Node := decEq

/-! ## Nesting -/

mutual
/-- The number of elements and scopes that stand inside one another, the node itself counted. -/
def depth : Node → Nat
  | .element _ children => depthAll children + 1
  | .text _ => 0
  | .value _ => 0
  | .scope _ children => depthAll children + 1

/-- The greatest depth of the nodes. -/
def depthAll : List Node → Nat
  | [] => 0
  | node :: nodes => max node.depth (depthAll nodes)
end

@[simp] theorem depth_element (head : Head) (children : List Node) :
    (element head children).depth = depthAll children + 1 := rfl

@[simp] theorem depth_scope (source : Expr) (children : List Node) :
    (scope source children).depth = depthAll children + 1 := rfl

end Node

namespace Template

instance : DecidableEq Template := fun left right =>
  decidable_of_iff (left.nodes = right.nodes) (by cases left; cases right; simp)

/-- A template without nodes renders to nothing. -/
def isEmpty (template : Template) : Bool := template.nodes.isEmpty

end Template

end XmlTemplate
