import FormDesign.Json.Print
import FormDesign.Json.Tree.Read
import FormDesign.Xml.Node

/-!
# Elements as JSON

An element is written as an object with its name, its attributes if it has any, and its text or its
children if it holds either. Reading refuses an object that has both a text and children.
-/

namespace FormDesign.Xml

open Json (Value Tree Record Slot Fault)

namespace Attributes

/-- Attributes as an object, in their order. -/
def toValue (attrs : Attributes) : Value :=
  .object (attrs.entries.map fun (key, value) => (key, .string value))

/-- Reads attributes from an object of texts, each member set in its turn. -/
def read (room : Nat) (t : Tree) : Except Fault Attributes :=
  ofList <$> t.entriesAs "a map of attribute names to string values" Tree.text room

end Attributes

namespace Node

mutual

/-- An element as an object. -/
def toValue : Node → Value
  | empty name attrs => .object (head name attrs)
  | text name attrs value => .object (head name attrs ++ [("val", .string value)])
  | parent name attrs children =>
    .object (head name attrs ++ [("children", .array (toValues children))])

/-- Elements as objects. -/
def toValues : List Node → List Value
  | [] => []
  | node :: nodes => node.toValue :: toValues nodes

/-- The members that every element has. -/
def head (name : String) (attrs : Attributes) : List (String × Value) :=
  ("name", .string name) :: if attrs.isEmpty then [] else [("attrs", attrs.toValue)]

end

/-- The parts of an element as they are read. -/
structure Parts where
  name : String
  attrs : Attributes
  value : Option String
  children : Option (List Node)

/-- The fault of an element that has both a text and children. -/
def overfull (name : String) : Fault :=
  .refused s!"xml node '{name}' carries both a value and children"

/-- The element that the parts make up. -/
def Parts.node (parts : Parts) : Except Fault Node :=
  match parts.value, parts.children with
  | some _, some _ => .error (overfull parts.name)
  | some value, none => .ok (text parts.name parts.attrs value)
  | none, some children => .ok (parent parts.name parts.attrs children)
  | none, none => .ok (empty parts.name parts.attrs)

/-- How the parts of an element are read, given what reads its children. -/
def record (children : Tree → Except Fault (List Node)) (room : Nat) : Record Tree Parts where
  expected := "struct RawNode"
  slots := [
    .mandatory "name" [] Tree.text fun name parts => { parts with name },
    .optional "attrs" [] (Attributes.read room) fun attrs parts => { parts with attrs },
    .optional "val" [] (Tree.orNull Tree.text) fun value parts => { parts with value },
    .optional "children" [] (Tree.orNull children) fun children parts => { parts with children }]
  blank := { name := "", attrs := .empty, value := none, children := none }

/-- Reads an element. -/
def read : Nat → Tree → Except Fault Node
  | 0, t => t.noRecord "struct RawNode"
  | room + 1, t => do
    let children := match room with
      | 0 => Tree.noList
      | inner + 1 => Tree.listOf (read inner)
    (← t.recordOf (record children room)).node

/-- Reads an element from a JSON text. -/
def ofJson (text : String) : Except Fault Node :=
  Json.readText read text

end Node

end FormDesign.Xml
