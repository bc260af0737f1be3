import FormDesign.Xml.Node
import Mathlib.Data.List.Basic

/-!
# Places in a tree

The place of an element in a tree is the way down to it: the position of a child among its
siblings, then the position of one of its children, and so on. Two elements that look the same
still have places of their own. Following names always takes the first child of a name, so it
leads to one place among those that the names fit.

## Main definitions

* `Node.at?`: the element at a place;
* `Node.place?`: the place that following names leads to;
* `Node.emptyPlaces`: the places of the empty elements, in the order of the document;
* `Node.emptyPaths`: the names on the way down to them.

## Main results

* `descend?_eq_bind_at?`: following names leads to the element at their place.
-/

namespace FormDesign.Xml.Node

/-- The element at a place. -/
def at? (node : Node) : List Nat → Option Node
  | [] => some node
  | i :: place => do (← node.children[i]?).at? place

/-- The place that is reached by following names from element to child. -/
def place? (node : Node) : List String → Option (List Nat)
  | [] => some []
  | name :: path => do
    let i ← node.children.findIdx? fun child => child.name = name
    let place ← (← node.children[i]?).place? path
    return i :: place

/-- Looking for the first child of a name finds the child at its position. -/
theorem child?_eq_bind_getElem? (node : Node) (name : String) :
    node.child? name = (node.children.findIdx? fun child => child.name = name).bind
      (node.children[·]?) := by
  rw [child?]
  generalize node.children = children
  induction children with
  | nil => rfl
  | cons child children ih =>
    by_cases h : child.name = name
    · simp only [List.find?_cons, List.findIdx?_cons, h, decide_true, if_true]
      rfl
    · simp only [List.find?_cons, List.findIdx?_cons, h, decide_false, Bool.false_eq_true,
        if_false, ih]
      cases children.findIdx? fun child => child.name = name <;> simp

/-- Following names leads to the element at their place. -/
theorem descend?_eq_bind_at? (node : Node) (path : List String) :
    node.descend? path = (node.place? path).bind node.at? := by
  induction path generalizing node with
  | nil => rfl
  | cons name path ih =>
    -- both start at the child that the first name finds
    simp only [descend?, place?, child?_eq_bind_getElem?]
    cases node.children.findIdx? fun child => child.name = name with
    | none => rfl
    | some i =>
      cases hChild : node.children[i]? with
      | none => simp [hChild]
      | some child =>
        simp only [hChild, Option.bind_eq_bind, Option.bind_some, ih]
        cases child.place? path <;> simp [at?, hChild]

variable {node first : Node} {others : List Node}

/-- Following names starts at the first child, if that has the first of the names. -/
theorem place?_cons_of_eq (hChildren : node.children = first :: others) {name : String}
    (h : first.name = name) (path : List String) :
    node.place? (name :: path) = (first.place? path).map (0 :: ·) := by
  rw [place?, hChildren]
  simp only [List.findIdx?_cons, h, decide_true, if_true, Option.bind_eq_bind, Option.bind_some,
    List.getElem?_cons_zero]
  cases first.place? path <;> rfl

/-- Following names passes over a first child of another name. -/
theorem place?_cons_of_ne (hChildren : node.children = first :: others) {name : String}
    (h : first.name ≠ name) (path : List String) :
    node.place? (name :: path) =
      ((parent "" .empty others).place? (name :: path)).map (List.modifyHead (· + 1)) := by
  rw [place?, place?, hChildren]
  simp only [List.findIdx?_cons, h, decide_false, Bool.false_eq_true, if_false, children]
  cases others.findIdx? fun child => child.name = name with
  | none => rfl
  | some i =>
    simp only [Option.map_some, Option.bind_eq_bind, Option.bind_some, List.getElem?_cons_succ]
    cases others[i]? with
    | none => rfl
    | some child =>
      simp only [Option.bind_some]
      cases child.place? path <;> rfl

/-! ## Empty elements -/

mutual

/-- The places of the empty elements of a tree, in the order of the document. -/
def emptyPlaces : Node → List (List Nat)
  | empty _ _ => [[]]
  | text _ _ _ => []
  | parent _ _ children => emptyPlacesAll children

/-- The places of the empty elements of siblings, in the order of the document. -/
def emptyPlacesAll : List Node → List (List Nat)
  | [] => []
  | node :: nodes =>
    (emptyPlaces node).map (0 :: ·) ++ (emptyPlacesAll nodes).map (List.modifyHead (· + 1))

end

/-- An attribute moves no element. -/
theorem emptyPlaces_attr? (node : Node) (key : String) (value : Option String) :
    (node.attr? key value).emptyPlaces = node.emptyPlaces := by
  cases value with
  | none => rfl
  | some value => cases node <;> simp only [attr?, attr, withAttrs, emptyPlaces]

mutual

/-- The names on the way down to each empty element of a tree, its own name the last, in the order
of the document. -/
def emptyPaths : Node → List (List String)
  | empty name _ => [[name]]
  | text _ _ _ => []
  | parent name _ children => (emptyPathsAll children).map (name :: ·)

/-- The names on the way down to each empty element of siblings, in the order of the document. -/
def emptyPathsAll : List Node → List (List String)
  | [] => []
  | node :: nodes => emptyPaths node ++ emptyPathsAll nodes

end

end FormDesign.Xml.Node
