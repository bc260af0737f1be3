import FormDesign.Proofs.Xml.Lossless
import FormDesign.Proofs.Xml.Places
import Mathlib.Algebra.GroupWithZero.Nat

/-!
# Lines and their indentation

The text of a tree is made of lines, as long as nothing that is written in it breaks a line by
itself. How far a line is indented depends on two things only: how deep the tree is rendered, and
how many levels below the root the element of the line stands. So a tree that is rendered deeper
has the same lines, all moved by the same number of blanks, and the two tags around a list of
elements stand one above the other.

## Main definitions

* `Text.lines`: the lines of a text;
* `Node.IsUnbroken`: an element in which nothing breaks a line;
* `Node.lineCount`: how many lines the elements of a tree ask for;
* `Node.linesBefore`: how many lines stand above the opening tag of the element at a place;
* `Node.layout`: the lines of a tree, each with its level and without its indentation.

## Main results

* `Node.lines_renderAt`: the lines of a tree are those of its layout, each behind its blanks;
* `Node.exists_layout_eq`: the layout of an element is a part of the layout of the tree around it;
* `Node.renderAt_indents_uniformly`: how the lines of a tree are indented, counted and ended.
-/

namespace FormDesign

namespace Text

/-- The lines of a text: the characters before each line break, from the one before it. What stands
behind the last line break is no line. -/
def lines (text : String) : List (List Char) :=
  (text.toList.splitOn '\n').dropLast

/-- Splitting lines that each end with a line break leaves nothing behind the last of them. -/
theorem splitOn_flatMap {ls : List (List Char)} (h : ∀ line ∈ ls, '\n' ∉ line) :
    (ls.flatMap (· ++ ['\n'])).splitOn '\n' = ls ++ [[]] := by
  induction ls with
  | nil => rfl
  | cons line ls ih =>
    obtain ⟨hFirst, hLater⟩ := List.forall_mem_cons.1 h
    rw [List.flatMap_cons, List.append_assoc, List.singleton_append,
      List.splitOn_append_cons_self_of_not_mem hFirst, ih hLater, List.cons_append]

/-- Lines that hold no line break, each with one at its end, are the lines of their text. -/
theorem lines_of_toList_eq {text : String} {ls : List (List Char)}
    (hText : text.toList = ls.flatMap (· ++ ['\n'])) (hLines : ∀ line ∈ ls, '\n' ∉ line) :
    lines text = ls := by
  rw [lines, hText, splitOn_flatMap hLines, List.dropLast_concat]

end Text

namespace Xml.Node

open Text

/-- An element in whose name, attributes and text no line is broken. -/
@[mk_iff]
structure IsUnbroken (node : Node) : Prop where
  name : '\n' ∉ node.name.toList
  attrs : ∀ entry ∈ node.attrs.entries, '\n' ∉ entry.1.toList ∧ '\n' ∉ entry.2.toList
  text : ∀ value ∈ node.value?, '\n' ∉ value.toList

/-- Whether an element holds a list of elements, which may have none. -/
def holdsElements : Node → Bool
  | parent _ _ _ => true
  | _ => false

/-- The lines that the elements of a tree ask for: one for each that is empty or holds a text, and
two for each that holds elements. -/
def lineCount (node : Node) : Nat :=
  node.elements.countP (!·.holdsElements) + 2 * node.elements.countP holdsElements

/-- The number of lines above the opening tag of the element at a place: in each element on the way
down, the line of its own opening tag and all lines of the children that are passed. -/
def linesBefore (node : Node) : List Nat → Nat
  | [] => 0
  | i :: place =>
    -- where there is no such child, there is no element at the place either
    1 + ((node.children.take i).map lineCount).sum +
      (node.children[i]?).elim 0 (linesBefore · place)

@[simp]
theorem lineCount_empty (name : String) (attrs : Attributes) :
    (empty name attrs).lineCount = 1 := by
  simp [lineCount, holdsElements]

@[simp]
theorem lineCount_text (name : String) (attrs : Attributes) (value : String) :
    (text name attrs value).lineCount = 1 := by
  simp [lineCount, holdsElements]

@[simp]
theorem lineCount_parent (name : String) (attrs : Attributes) (children : List Node) :
    (parent name attrs children).lineCount = (children.map lineCount).sum + 2 := by
  -- counting is additive over siblings, separately for both kinds of elements
  have hSum : (children.map lineCount).sum =
      (children.flatMap elements).countP (!·.holdsElements) +
        2 * (children.flatMap elements).countP holdsElements := by
    induction children with
    | nil => rfl
    | cons child children ih =>
      rw [List.map_cons, List.sum_cons, ih, List.flatMap_cons, List.countP_append,
        List.countP_append, lineCount]
      omega
  rw [hSum, lineCount, elements_parent, List.countP_cons_of_neg (by simp [holdsElements]),
    List.countP_cons_of_pos rfl]
  omega

theorem lineCount_pos (node : Node) : 0 < node.lineCount := by
  cases node <;> simp

/-! ## Layouts -/

/-- A line of a layout, moved to a deeper level. -/
def deeper (levels : Nat) (line : Nat × List Char) : Nat × List Char :=
  (line.1 + levels, line.2)

theorem map_deeper_zero (ls : List (Nat × List Char)) : ls.map (deeper 0) = ls :=
  List.map_id ls

theorem map_deeper_deeper (m n : Nat) (ls : List (Nat × List Char)) :
    (ls.map (deeper m)).map (deeper n) = ls.map (deeper (m + n)) := by
  rw [List.map_map]
  refine List.map_congr_left fun line _ => ?_
  simp only [Function.comp_apply, deeper, Nat.add_assoc]

/-- A line of a layout as it is written in a tree that is rendered at `depth`. -/
def lineAt (depth : Nat) (line : Nat × List Char) : List Char :=
  List.replicate (2 * (depth + line.1)) ' ' ++ line.2

theorem lineAt_root (depth : Nat) (text : List Char) :
    lineAt depth (0, text) = List.replicate (2 * depth) ' ' ++ text := rfl

theorem lineAt_deeper (depth levels : Nat) (line : Nat × List Char) :
    lineAt depth (deeper levels line) = lineAt (depth + levels) line := by
  have hLevel : depth + (line.1 + levels) = depth + levels + line.1 := by omega
  rw [lineAt, lineAt, deeper, hLevel]

/-- A line of a tree that is rendered deeper is moved by two blanks for each level. -/
theorem lineAt_eq_append (depth : Nat) (line : Nat × List Char) :
    lineAt depth line = List.replicate (2 * depth) ' ' ++ lineAt 0 line := by
  rw [lineAt, lineAt, Nat.zero_add, Nat.mul_add, List.replicate_add, List.append_assoc]

mutual

/-- The lines of a tree without their indentation, each with the number of levels that its element
stands below the root. -/
def layout : Node → List (Nat × List Char)
  | empty name attrs => [(0, (tagStart name attrs).toList ++ ['/', '>'])]
  | text name attrs value =>
    [(0, (tagStart name attrs).toList ++
      '>' :: (value.toList ++ '<' :: '/' :: (name.toList ++ ['>'])))]
  | parent name attrs children =>
    (0, (tagStart name attrs).toList ++ ['>']) :: layoutAll children ++
      [(0, '<' :: '/' :: (name.toList ++ ['>']))]

/-- The lines of trees one level down, one tree after another. -/
def layoutAll : List Node → List (Nat × List Char)
  | [] => []
  | node :: nodes => (layout node).map (deeper 1) ++ layoutAll nodes

end

/-- The first line of a layout is at the level of the root and begins with its tag. -/
theorem exists_layout_eq_cons (node : Node) :
    ∃ rest later, node.layout = (0, (tagStart node.name node.attrs).toList ++ rest) :: later := by
  cases node <;> exact ⟨_, _, rfl⟩

theorem layoutAll_eq_flatMap (nodes : List Node) :
    layoutAll nodes = nodes.flatMap fun node => node.layout.map (deeper 1) := by
  induction nodes with
  | nil => rfl
  | cons node nodes ih => rw [layoutAll, ih, List.flatMap_cons]

theorem layoutAll_append (first later : List Node) :
    layoutAll (first ++ later) = layoutAll first ++ layoutAll later := by
  simp only [layoutAll_eq_flatMap, List.flatMap_append]

/-- If the layout of every tree has the lines that its elements ask for, so have the layouts of all
together. -/
theorem length_layoutAll {nodes : List Node}
    (h : ∀ node ∈ nodes, node.layout.length = node.lineCount) :
    (layoutAll nodes).length = (nodes.map lineCount).sum := by
  simp only [layoutAll_eq_flatMap, List.length_flatMap, List.length_map]
  exact congrArg List.sum (List.map_congr_left h)

/-- A layout has the lines that the elements of the tree ask for. -/
theorem length_layout (node : Node) : node.layout.length = node.lineCount := by
  induction node using inductionOn with
  | empty name attrs => rw [layout, List.length_singleton, lineCount_empty]
  | text name attrs value => rw [layout, List.length_singleton, lineCount_text]
  | parent name attrs children ih =>
    rw [layout, List.length_append, List.length_cons, length_layoutAll ih, lineCount_parent,
      List.length_singleton]

theorem toList_renderAll (depth : Nat) (nodes : List Node) :
    (renderAll depth nodes).toList = nodes.flatMap fun node => (node.renderAt depth).toList := by
  induction nodes with
  | nil => rfl
  | cons node nodes ih => rw [renderAll, String.toList_append, ih, List.flatMap_cons]

/-- The text of a tree is its layout, each line behind its blanks and before a line break. -/
theorem toList_renderAt_eq_flatMap (depth : Nat) (node : Node) :
    (node.renderAt depth).toList = (node.layout.map (lineAt depth)).flatMap (· ++ ['\n']) := by
  -- by induction at every depth at once, as children are rendered deeper than their parent
  induction node using inductionOn generalizing depth with
  | empty name attrs =>
    simp [toList_renderAt, layout, afterTag, lineAt_root, Node.name, Node.attrs]
  | text name attrs value =>
    simp [toList_renderAt, layout, afterTag, lineAt_root, Node.name, Node.attrs]
  | parent name attrs children ih =>
    -- the lines of the children are written one level deeper than the two tags around them
    have hInside : (renderAll (depth + 1) children).toList =
        ((layoutAll children).map (lineAt depth)).flatMap (· ++ ['\n']) := by
      rw [toList_renderAll, layoutAll_eq_flatMap, List.map_flatMap, List.flatMap_assoc]
      refine List.flatMap_congr fun child hChild => ?_
      rw [ih child hChild, List.map_map]
      congr 2
      funext line
      exact (lineAt_deeper depth 1 line).symm
    simp [toList_renderAt, layout, afterTag, lineAt_root, hInside, Node.name, Node.attrs]

/-! ## Trees in which nothing breaks a line -/

theorem IsUnbroken.not_mem_tagStart {node : Node} (h : node.IsUnbroken) :
    '\n' ∉ (tagStart node.name node.attrs).toList := by
  have hEntries : '\n' ∉ node.attrs.entries.flatMap entryChars := by
    intro hMem
    obtain ⟨entry, hEntry, hChar⟩ := List.mem_flatMap.1 hMem
    obtain ⟨hKey, hValue⟩ := h.attrs entry hEntry
    simp [entryChars, hKey, hValue] at hChar
  simp [tagStart, Attributes.toList_render, h.name, hEntries]

/-- Nothing breaks a line of a layout. -/
theorem not_mem_of_mem_layout {node : Node} (h : ∀ n ∈ node.elements, n.IsUnbroken) :
    ∀ line ∈ node.layout, '\n' ∉ line.2 := by
  induction node using inductionOn with
  | empty name attrs =>
    obtain ⟨hOwn, -⟩ := forall_elements_iff.1 h
    have hTag : '\n' ∉ (tagStart name attrs).toList := hOwn.not_mem_tagStart
    simp [layout, hTag]
  | text name attrs value =>
    obtain ⟨hOwn, -⟩ := forall_elements_iff.1 h
    have hTag : '\n' ∉ (tagStart name attrs).toList := hOwn.not_mem_tagStart
    have hName : '\n' ∉ name.toList := hOwn.name
    have hText : '\n' ∉ value.toList := hOwn.text value rfl
    simp [layout, hTag, hName, hText]
  | parent name attrs children ih =>
    obtain ⟨hOwn, hInside⟩ := forall_elements_iff.1 h
    have hTag : '\n' ∉ (tagStart name attrs).toList := hOwn.not_mem_tagStart
    have hName : '\n' ∉ name.toList := hOwn.name
    have hLater : ∀ line ∈ layoutAll children, '\n' ∉ line.2 := by
      intro line hLine
      rw [layoutAll_eq_flatMap] at hLine
      obtain ⟨child, hChild, hMoved⟩ := List.mem_flatMap.1 hLine
      obtain ⟨own, hMem, rfl⟩ := List.mem_map.1 hMoved
      exact ih child hChild (hInside child hChild) own hMem
    rw [layout, List.cons_append, List.forall_mem_cons, List.forall_mem_append,
      List.forall_mem_singleton]
    exact ⟨by simp [hTag], hLater, by simp [hName]⟩

/-- The lines of a tree are those of its layout, each behind its blanks. -/
theorem lines_renderAt {node : Node} (h : ∀ n ∈ node.elements, n.IsUnbroken) (depth : Nat) :
    lines (node.renderAt depth) = node.layout.map (lineAt depth) := by
  refine lines_of_toList_eq (node.toList_renderAt_eq_flatMap depth) ?_
  rw [List.forall_mem_map]
  intro line hLine hMem
  rcases List.mem_append.1 hMem with hBlank | hText
  · exact absurd (List.eq_of_mem_replicate hBlank) (by decide)
  · exact not_mem_of_mem_layout h line hLine hText

/-! ## Elements inside a tree -/

section

variable {node n : Node} {place : List Nat}

/-- The elements inside the one at a place are elements of the tree. -/
theorem elements_subset_of_at? (h : node.at? place = some n) : n.elements ⊆ node.elements := by
  induction place generalizing node with
  | nil =>
    obtain rfl := Option.some.inj h
    exact List.Subset.refl _
  | cons i place ih =>
    obtain ⟨child, hChild, hLater⟩ := Option.bind_eq_some_iff.1 h
    intro e he
    exact mem_elements_of_mem_children (List.mem_of_getElem? hChild) (ih hLater he)

/-- The layout of a child is a part of the layout of the element around it, one level down. -/
theorem exists_layout_child {child : Node} {i : Nat} (h : node.children[i]? = some child) :
    ∃ before after, node.layout = before ++ child.layout.map (deeper 1) ++ after ∧
      before.length = 1 + ((node.children.take i).map lineCount).sum := by
  cases node with
  | empty | text => simp [children] at h
  | parent name attrs children =>
    obtain ⟨hIndex, hGet⟩ : ∃ hIndex : i < children.length, children[i] = child :=
      List.getElem?_eq_some_iff.1 h
    have hChildren : children.take i ++ child :: children.drop (i + 1) = children := by
      rw [← hGet, List.getElem_cons_drop, List.take_append_drop]
    have hPassed : (layoutAll (children.take i)).length = ((children.take i).map lineCount).sum :=
      length_layoutAll fun c _ => c.length_layout
    -- above the child stand the opening tag and the children that come first
    refine ⟨(0, (tagStart name attrs).toList ++ ['>']) :: layoutAll (children.take i),
      layoutAll (children.drop (i + 1)) ++ [(0, '<' :: '/' :: (name.toList ++ ['>']))], ?_, ?_⟩
    · conv_lhs => rw [layout, ← hChildren, layoutAll_append, layoutAll]
      simp only [List.cons_append, List.append_assoc]
    · rw [List.length_cons, hPassed, Nat.add_comm]
      rfl

/-- The layout of the element at a place is a part of the layout of the tree, as many levels down
as the place is long. -/
theorem exists_layout_eq (h : node.at? place = some n) :
    ∃ before after, node.layout = before ++ n.layout.map (deeper place.length) ++ after ∧
      before.length = node.linesBefore place := by
  induction place generalizing node with
  | nil =>
    obtain rfl := Option.some.inj h
    exact ⟨[], [], by rw [List.length_nil, map_deeper_zero, List.nil_append, List.append_nil], rfl⟩
  | cons i place ih =>
    obtain ⟨child, hChild, hLater⟩ := Option.bind_eq_some_iff.1 h
    -- the lines around the child, and those of the child around the element at the place
    obtain ⟨above, below, hNode, hAbove⟩ := exists_layout_child hChild
    obtain ⟨before, after, hLayout, hLength⟩ := ih hLater
    refine ⟨above ++ before.map (deeper 1), after.map (deeper 1) ++ below, ?_, ?_⟩
    · rw [hNode, hLayout]
      simp only [List.map_append, map_deeper_deeper, List.length_cons, List.append_assoc]
    · rw [List.length_append, hAbove, List.length_map, hLength, linesBefore, hChild,
        Option.elim_some]

/-- The lines of the element at a place, as it is rendered by itself at its depth, are lines of the
tree. -/
theorem getElem?_lines_renderAt (hNode : ∀ e ∈ node.elements, e.IsUnbroken)
    (h : node.at? place = some n) (depth : Nat) {i : Nat} (hi : i < n.lineCount) :
    (lines (node.renderAt depth))[node.linesBefore place + i]? =
      (lines (n.renderAt (depth + place.length)))[i]? := by
  obtain ⟨before, after, hLayout, hLength⟩ := exists_layout_eq h
  have hInside : ∀ e ∈ n.elements, e.IsUnbroken := fun e he =>
    hNode e (elements_subset_of_at? h he)
  have hMoved : (n.layout.map (deeper place.length)).map (lineAt depth) =
      lines (n.renderAt (depth + place.length)) := by
    rw [lines_renderAt hInside, List.map_map]
    exact List.map_congr_left fun line _ => lineAt_deeper depth place.length line
  have hCount : (lines (n.renderAt (depth + place.length))).length = n.lineCount := by
    rw [lines_renderAt hInside, List.length_map, length_layout]
  -- the position is behind the lines above the element and before those below it
  rw [lines_renderAt hNode, hLayout, List.map_append, List.map_append, hMoved, List.append_assoc,
    List.getElem?_append_right (by rw [List.length_map, hLength]; omega), List.length_map, hLength,
    Nat.add_sub_cancel_left, List.getElem?_append_left (by rwa [hCount])]

end

/-- The first line of an element begins with its blanks and its tag. -/
theorem exists_getElem?_zero_lines {node : Node} (h : ∀ n ∈ node.elements, n.IsUnbroken)
    (depth : Nat) : ∃ rest, (lines (node.renderAt depth))[0]? =
      some (List.replicate (2 * depth) ' ' ++ '<' :: (node.name.toList ++ rest)) := by
  obtain ⟨rest, later, hLayout⟩ := node.exists_layout_eq_cons
  refine ⟨node.attrs.render.toList ++ rest, ?_⟩
  rw [lines_renderAt h, hLayout]
  simp [lineAt_root, tagStart]

/-- The last line of an element that holds elements is its closing tag. -/
theorem getElem?_lines_of_holdsElements {node : Node} (h : ∀ n ∈ node.elements, n.IsUnbroken)
    (hHolds : node.holdsElements) (depth : Nat) :
    (lines (node.renderAt depth))[node.lineCount - 1]? =
      some (List.replicate (2 * depth) ' ' ++ '<' :: '/' :: (node.name.toList ++ ['>'])) := by
  cases node with
  | empty | text => exact absurd hHolds Bool.false_ne_true
  | parent name attrs children =>
    rw [lines_renderAt h, ← length_layout, layout]
    simp [lineAt_root, Node.name]

/-- Where nothing in a tree breaks a line, the tree at any depth has the lines that it has at depth
zero, each behind two more blanks for every level of the depth. Every line ends with a line break.
There is one line for each element that is empty or holds a text, and there are two for each that
holds elements, even if it has none. From its opening tag on, an element has the lines that it has
by itself at its own depth: the first of them is its opening tag behind two blanks for every level,
and the last of them, if it holds elements, is its closing tag behind the same blanks. -/
theorem renderAt_indents_uniformly {node : Node} (h : ∀ n ∈ node.elements, n.IsUnbroken)
    (depth : Nat) :
    lines (node.renderAt depth) =
        (lines (node.renderAt 0)).map (List.replicate (2 * depth) ' ' ++ ·) ∧
      (node.renderAt depth).toList = (lines (node.renderAt depth)).flatMap (· ++ ['\n']) ∧
      (lines (node.renderAt depth)).length =
        node.elements.countP (!·.holdsElements) + 2 * node.elements.countP holdsElements ∧
      ∀ place n, node.at? place = some n →
        (∀ i < n.lineCount, (lines (node.renderAt depth))[node.linesBefore place + i]? =
          (lines (n.renderAt (depth + place.length)))[i]?) ∧
        (∃ rest, (lines (node.renderAt depth))[node.linesBefore place]? =
          some (List.replicate (2 * (depth + place.length)) ' ' ++
            '<' :: (n.name.toList ++ rest))) ∧
        (n.holdsElements →
          (lines (node.renderAt depth))[node.linesBefore place + (n.lineCount - 1)]? =
            some (List.replicate (2 * (depth + place.length)) ' ' ++
              '<' :: '/' :: (n.name.toList ++ ['>']))) := by
  refine ⟨?_, ?_, ?_, ?_⟩
  · rw [lines_renderAt h, lines_renderAt h, List.map_map]
    exact List.map_congr_left fun line _ => lineAt_eq_append depth line
  · rw [lines_renderAt h]
    exact node.toList_renderAt_eq_flatMap depth
  · rw [lines_renderAt h, List.length_map]
    exact node.length_layout
  · intro place n hPlace
    have hInside : ∀ e ∈ n.elements, e.IsUnbroken := fun e he =>
      h e (elements_subset_of_at? hPlace he)
    have hPos : 0 < n.lineCount := n.lineCount_pos
    refine ⟨fun i hi => getElem?_lines_renderAt h hPlace depth hi, ?_, fun hHolds => ?_⟩
    · obtain ⟨rest, hFirst⟩ := exists_getElem?_zero_lines hInside (depth + place.length)
      exact ⟨rest, (getElem?_lines_renderAt h hPlace depth hPos).trans hFirst⟩
    · exact (getElem?_lines_renderAt h hPlace depth (by omega)).trans
        (getElem?_lines_of_holdsElements hInside hHolds _)

/-- The two tags around an empty list of elements that stands two levels below a root at depth one,
behind a text that looks like a closing tag. -/
theorem renderAt_indents_uniformly_nested :
    let node := parent "a" ⟨[("k", "x > 0")], by decide⟩
      [parent "b" .empty [text "c" .empty "</b>", parent "d" .empty []], empty "b" .empty]
    (lines (node.renderAt 1)).length = 8 ∧
      node.at? [0, 1] = some (parent "d" .empty []) ∧
      (lines (node.renderAt 1))[4]? = some "      </d>".toList := by
  intro node
  have hUnbroken : ∀ n ∈ node.elements, n.IsUnbroken := by
    simp [node, isUnbroken_iff, Node.name, Node.attrs, value?, Attributes.empty]
  obtain ⟨-, -, hCount, hPlaces⟩ := renderAt_indents_uniformly hUnbroken 1
  exact ⟨hCount, rfl, (hPlaces [0, 1] _ rfl).2.2 rfl⟩

end Xml.Node

end FormDesign
