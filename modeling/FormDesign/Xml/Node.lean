import FormDesign.Xml.Attributes

/-!
# Elements

A document is a tree of named elements with attributes. An element is empty, holds a text, or holds
a list of elements; an empty list of elements and an empty text are not the same as an empty
element.
-/

namespace FormDesign.Xml

/-- An element. -/
inductive Node
  | empty (name : String) (attrs : Attributes)
  | text (name : String) (attrs : Attributes) (value : String)
  | parent (name : String) (attrs : Attributes) (children : List Node)
  deriving BEq

instance : Inhabited Node := ⟨.empty "" .empty⟩

namespace Node

/-- The name of an element. -/
def name : Node → String
  | empty name _ | text name _ _ | parent name _ _ => name

/-- The attributes of an element. -/
def attrs : Node → Attributes
  | empty _ attrs | text _ attrs _ | parent _ attrs _ => attrs

/-- The text of an element that holds one. -/
def value? : Node → Option String
  | text _ _ value => some value
  | _ => none

/-- The elements directly inside an element. -/
def children : Node → List Node
  | parent _ _ children => children
  | _ => []

/-- The element with other attributes. -/
def withAttrs (attrs : Attributes) : Node → Node
  | empty name _ => empty name attrs
  | text name _ value => text name attrs value
  | parent name _ children => parent name attrs children

/-- The element with one attribute set. -/
def attr (node : Node) (key value : String) : Node :=
  node.withAttrs (node.attrs.set key value)

/-- The element with one attribute set, if there is a value for it. -/
def attr? (node : Node) (key : String) (value : Option String) : Node :=
  match value with
  | some value => node.attr key value
  | none => node

/-- The element with a further element at its end. A text is given up for it. -/
def push (node child : Node) : Node :=
  parent node.name node.attrs (node.children ++ [child])

/-- The first element named `name` directly inside an element. -/
def child? (node : Node) (name : String) : Option Node :=
  node.children.find? fun child => child.name = name

/-- The element that is reached by following names from element to child. -/
def descend? (node : Node) : List String → Option Node
  | [] => some node
  | name :: path => do (← node.child? name).descend? path

@[simp] theorem name_withAttrs (node : Node) (attrs : Attributes) :
    (node.withAttrs attrs).name = node.name := by
  cases node <;> rfl

@[simp] theorem attrs_withAttrs (node : Node) (attrs : Attributes) :
    (node.withAttrs attrs).attrs = attrs := by
  cases node <;> rfl

@[simp] theorem children_withAttrs (node : Node) (attrs : Attributes) :
    (node.withAttrs attrs).children = node.children := by
  cases node <;> rfl

end Node

end FormDesign.Xml
