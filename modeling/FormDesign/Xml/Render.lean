import FormDesign.Xml.Node

/-!
# Rendering

The text of an element: one line for an element that is empty or holds a text, and for one that
holds elements a line for its opening tag, the lines of its children two columns further in, and a
line for its closing tag. Nothing is escaped here; names, values and texts are written as they are.
-/

namespace FormDesign.Xml

namespace Attributes

/-- The attributes as they stand in a tag, each behind a blank. -/
def render (attrs : Attributes) : String :=
  String.join (attrs.entries.map fun entry => " " ++ entry.1 ++ "=\"" ++ entry.2 ++ "\"")

end Attributes

/-- The blanks that begin a line at `depth`. -/
def indent (depth : Nat) : String :=
  String.ofList (List.replicate (2 * depth) ' ')

namespace Node

/-- The name and the attributes as they open a tag. -/
def tagStart (name : String) (attrs : Attributes) : String :=
  "<" ++ name ++ attrs.render

mutual

/-- The lines of an element at `depth`. -/
def renderAt (depth : Nat) : Node → String
  | empty name attrs => indent depth ++ tagStart name attrs ++ "/>\n"
  | text name attrs value =>
    indent depth ++ tagStart name attrs ++ ">" ++ value ++ "</" ++ name ++ ">\n"
  | parent name attrs children =>
    indent depth ++ tagStart name attrs ++ ">\n" ++ renderAll (depth + 1) children ++
      indent depth ++ "</" ++ name ++ ">\n"

/-- The lines of elements at `depth`, one after another. -/
def renderAll (depth : Nat) : List Node → String
  | [] => ""
  | node :: nodes => renderAt depth node ++ renderAll depth nodes

end

/-- The text of an element. -/
def render (node : Node) : String :=
  node.renderAt 0

end Node

end FormDesign.Xml
