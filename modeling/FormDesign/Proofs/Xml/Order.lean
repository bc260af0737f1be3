import FormDesign.Proofs.Json.Order
import FormDesign.Proofs.Text.Bytes
import FormDesign.Proofs.Xml.Codec
import FormDesign.Xml.Render

/-!
# Elements with sorted attributes

An element that goes through a value whose members are sorted comes back with its attributes in the
order of their keys. Nothing is lost on the way, as no element has two attributes of one key; so
what is looked up in an element is found in both orders, and the two texts differ inside tags alone.

## Main definitions

* `Attributes.sorted`, `Node.sorted`: attributes in the order of their keys, in every element;
* `Attributes.SortedAs`, `Node.SortedAs`: that they are, and that nothing else has changed;
* `Node.AnswersAs`: looking up in two elements comes to the same;
* `Node.TagsReordered`: texts that differ in the order of attributes inside tags.

## Main results

* `Attributes.sortedAs_sorted`, `Node.sortedAs_sorted`: sorting changes the order alone;
* `Node.read_sorted_toValue`: what is read of an element that is written with sorted members;
* `Node.isOrdered_sorted_toValue`: the members that are written are in order, everywhere inside;
* `Node.answersAs_sorted`, `Node.tagsReordered_render`: what sorting does to looking up and to text.
-/

namespace FormDesign.Xml

open Json (Value Tree Fault Record KeyLE)

namespace Attributes

/-- The attributes in the order of their keys. -/
def sorted (attrs : Attributes) : Attributes where
  entries := attrs.entries.insertionSort KeyLE
  nodup := ((List.perm_insertionSort KeyLE _).map Prod.fst).nodup_iff.2 attrs.nodup

/-- The second attributes are the first in the order of their keys, as bytes. -/
structure SortedAs (attrs sorted : Attributes) : Prop where
  perm : sorted.entries.Perm attrs.entries
  increasing : sorted.keys.Pairwise fun k l => Text.bytes k < Text.bytes l

/-- Attributes are in the order of their keys once they are sorted. -/
theorem sortedAs_sorted (attrs : Attributes) : attrs.SortedAs attrs.sorted where
  perm := List.perm_insertionSort KeyLE _
  increasing := by
    have hOrdered : attrs.sorted.keys.Pairwise (· ≤ ·) :=
      List.pairwise_map.2 (List.pairwise_insertionSort KeyLE attrs.entries)
    -- a key does not occur twice, so that the next one is not only no less
    refine (hOrdered.and attrs.sorted.nodup).imp fun h => ?_
    exact Text.bytes_lt_bytes_iff.2 (Std.lt_of_le_of_ne h.1 h.2)

/-- A key has the value of the one entry that it has. -/
theorem get?_eq_some_iff {attrs : Attributes} {key value : String} :
    attrs.get? key = some value ↔ (key, value) ∈ attrs.entries := by
  rw [get?, Option.map_eq_some_iff]
  constructor
  · rintro ⟨⟨k, v⟩, hFound, rfl⟩
    have hKey : k = key := by simpa using List.find?_some hFound
    exact hKey ▸ List.mem_of_find?_eq_some hFound
  · intro hMem
    have hFound : (attrs.entries.find? fun entry => entry.1 = key).isSome = true :=
      List.find?_isSome.2 ⟨(key, value), hMem, decide_eq_true rfl⟩
    obtain ⟨entry, hEntry⟩ := Option.isSome_iff_exists.1 hFound
    have hKey : entry.1 = key := by simpa using List.find?_some hEntry
    have hSame := List.inj_on_of_nodup_map attrs.nodup (List.mem_of_find?_eq_some hEntry) hMem hKey
    exact ⟨entry, hEntry, congrArg Prod.snd hSame⟩

/-- Attributes in another order have the same values. -/
theorem get?_of_perm {a b : Attributes} (h : b.entries.Perm a.entries) (key : String) :
    b.get? key = a.get? key := by
  ext value
  rw [get?_eq_some_iff, get?_eq_some_iff, h.mem_iff]

/-- Attributes that are written and then sorted are written sorted. -/
theorem sorted_toValue (attrs : Attributes) : attrs.toValue.sorted = attrs.sorted.toValue := by
  let member : String × String → String × Value := fun entry => (entry.1, .string entry.2)
  have hMembers : (attrs.entries.map member).map (fun m => (m.1, m.2.sorted)) =
      attrs.entries.map member := by
    rw [List.map_map]
    rfl
  have hSort : (attrs.entries.insertionSort KeyLE).map member =
      (attrs.entries.map member).insertionSort KeyLE :=
    List.map_insertionSort KeyLE KeyLE member _ fun _ _ _ _ => Iff.rfl
  have hValue : attrs.toValue.sorted =
      .object (Value.sortedMembers (attrs.entries.map member)) := by
    rw [toValue, Value.sorted]
  rw [hValue, Value.sortedMembers_eq_insertionSort, hMembers, ← hSort]
  rfl

/-- Sorting loses no attribute. -/
theorem isEmpty_sorted (attrs : Attributes) : attrs.sorted.isEmpty = attrs.isEmpty :=
  (List.perm_insertionSort KeyLE attrs.entries).isEmpty_eq

end Attributes

namespace Node

mutual

/-- The element with the attributes of every element in the order of their keys. -/
def sorted : Node → Node
  | empty name attrs => empty name attrs.sorted
  | text name attrs value => text name attrs.sorted value
  | parent name attrs children => parent name attrs.sorted (sortedAll children)

/-- The elements with their attributes in the order of the keys. -/
def sortedAll : List Node → List Node
  | [] => []
  | node :: nodes => node.sorted :: sortedAll nodes

end

/-- Trees are sorted one by one. -/
theorem sortedAll_eq_map (nodes : List Node) : sortedAll nodes = nodes.map sorted := by
  induction nodes with
  | nil => rfl
  | cons node nodes ih => rw [sortedAll, ih, List.map_cons]

theorem sorted_parent (name : String) (attrs : Attributes) (children : List Node) :
    (parent name attrs children).sorted = parent name attrs.sorted (children.map sorted) := by
  rw [sorted, sortedAll_eq_map]

/-! ## Writing and reading -/

/-- The members for the attributes of an element, if it has any. -/
def attrsMember (attrs : Attributes) : List (String × Value) :=
  if attrs.isEmpty then [] else [("attrs", attrs.toValue)]

/-- What stands before the name of an element, in the order of the keys. -/
def membersBefore : Node → List (String × Value)
  | empty _ attrs | text _ attrs _ => attrsMember attrs.sorted
  | parent _ attrs children =>
    attrsMember attrs.sorted ++
      [("children", .array (children.map fun child => child.toValue.sorted))]

/-- What stands behind the name of an element, in the order of the keys. -/
def membersBehind : Node → List (String × Value)
  | text _ _ value => [("val", .string value)]
  | _ => []

/-- An element that is written, with its members in the order of their keys. -/
theorem sorted_toValue (node : Node) : node.toValue.sorted =
    .object (node.membersBefore ++ ("name", .string node.name) :: node.membersBehind) := by
  have hArray : ∀ children : List Node, (Value.array (children.map toValue)).sorted =
      .array (children.map fun child => child.toValue.sorted) := fun children => by
    rw [Value.sorted, Value.sortedItems_eq_map, List.map_map]
    rfl
  have hString : ∀ s, (Value.string s).sorted = .string s := fun _ => rfl
  rw [toValue_eq_object, Value.sorted]
  -- the keys are `attrs`, `children`, `name` and `val`, in this order
  have hChildren : ¬ "children" < "attrs" ∧ "children" < "name" := by decide
  have hVal : ¬ "val" < "attrs" ∧ ¬ "val" < "name" := by decide
  have hName : "attrs" < "name" := by decide
  by_cases hAttrs : node.attrs.isEmpty = true <;> cases node <;> rw [Node.attrs] at hAttrs <;>
    simp only [head, content, Node.attrs, name, membersBefore, membersBehind, attrsMember, hAttrs,
      Value.sortedMembers, Value.insertMember, hArray, hString, Attributes.sorted_toValue,
      Attributes.isEmpty_sorted, hChildren, hVal, hName, reduceIte, List.nil_append,
      List.cons_append, Bool.false_eq_true]

/-- The key of the attributes may be left out where keys increase. -/
theorem pairwise_attrsMember_append (attrs : Attributes) {keys : List String}
    (h : ("attrs" :: keys).Pairwise (· < ·)) :
    ((attrsMember attrs).map Prod.fst ++ keys).Pairwise (· < ·) := by
  rw [attrsMember]
  split_ifs
  · exact (List.pairwise_cons.1 h).2
  · exact h

/-- Written and sorted, the keys of an element increase. -/
theorem pairwise_keys (node : Node) :
    ((node.membersBefore ++ ("name", .string node.name) :: node.membersBehind).map
      Prod.fst).Pairwise (· < ·) := by
  have hName : ["attrs", "name"].Pairwise (· < ·) := by decide
  have hVal : ["attrs", "name", "val"].Pairwise (· < ·) := by decide
  have hChildren : ["attrs", "children", "name"].Pairwise (· < ·) := by decide
  cases node with
  | empty name attrs =>
    rw [membersBefore, List.map_append]
    exact pairwise_attrsMember_append attrs.sorted hName
  | text name attrs value =>
    rw [membersBefore, List.map_append]
    exact pairwise_attrsMember_append attrs.sorted hVal
  | parent name attrs children =>
    rw [membersBefore, List.append_assoc, List.map_append]
    exact pairwise_attrsMember_append attrs.sorted hChildren

/-- Sorted attributes are written with their keys in order. -/
theorem isOrdered_toValue {attrs sorted : Attributes} (h : attrs.SortedAs sorted) :
    sorted.toValue.IsOrdered := by
  refine .object ?_ (List.forall_mem_map.2 fun entry _ => .string entry.2)
  rw [List.map_map]
  exact h.increasing

/-- The members of an element are ordered when its children are. -/
theorem isOrdered_sorted_of_children (node : Node)
    (h : ∀ child ∈ node.children, child.toValue.sorted.IsOrdered) :
    node.toValue.sorted.IsOrdered := by
  have hAttrs : ∀ attrs : Attributes, ∀ member ∈ attrsMember attrs.sorted,
      member.2.IsOrdered := fun attrs member hMember => by
    rw [attrsMember] at hMember
    split_ifs at hMember
    · exact absurd hMember List.not_mem_nil
    · rw [List.mem_singleton.1 hMember]
      exact isOrdered_toValue attrs.sortedAs_sorted
  rw [sorted_toValue]
  refine .object (node.pairwise_keys.imp Text.bytes_lt_bytes_iff.2) ?_
  refine List.forall_mem_append.2 ⟨?before, ?behind⟩
  case before =>
    cases node with
    | empty name attrs | text name attrs value => exact hAttrs attrs
    | parent name attrs children =>
      refine List.forall_mem_append.2 ⟨hAttrs attrs, List.forall_mem_singleton.2 (.array ?_)⟩
      exact List.forall_mem_map.2 h
  case behind =>
    refine List.forall_mem_cons.2 ⟨.string _, ?_⟩
    cases node with
    | empty | parent => exact fun _ hMember => absurd hMember List.not_mem_nil
    | text name attrs value => exact List.forall_mem_singleton.2 (.string value)

/-- In what is written of an element and sorted, the keys of every object increase. -/
theorem isOrdered_sorted_toValue (node : Node) : node.toValue.sorted.IsOrdered := by
  induction node using inductionOn with
  | empty name attrs =>
    exact isOrdered_sorted_of_children _ fun _ h => absurd h List.not_mem_nil
  | text name attrs value =>
    exact isOrdered_sorted_of_children _ fun _ h => absurd h List.not_mem_nil
  | parent name attrs children ih => exact isOrdered_sorted_of_children _ ih

/-! ## Reading what has been written -/

section Members

variable {children : Tree → Except Fault (List Node)} {room : Nat} {given : List String}

theorem eq_attrs_of_mem_attrsMember {attrs : Attributes} {key : String}
    (h : key ∈ (attrsMember attrs).map Prod.fst) : key = "attrs" := by
  rw [attrsMember] at h
  split_ifs at h
  · exact absurd h List.not_mem_nil
  · exact List.mem_singleton.1 h

/-- Attributes are read first, if there are any. -/
theorem fillMembers_attrsMember {attrs : Attributes} (h : attrs.isEmpty = true ∨ 0 < room)
    (rest : List (Except Fault String × Tree)) :
    (record children room).fillMembers Tree.skip [] (record children room).blank
        ((attrsMember attrs).map written ++ rest) =
      (record children room).fillMembers Tree.skip ((attrsMember attrs).map Prod.fst)
        ⟨"", attrs, none, none⟩ rest := by
  rw [attrsMember]
  split_ifs with hAttrs
  · rw [Attributes.eq_empty_of_isEmpty hAttrs]
    rfl
  · have hRoom : 0 < room := h.resolve_left hAttrs
    exact (fillMembers_attrs "" attrs List.not_mem_nil rest).trans (if_pos hRoom)

/-- Children that can be read are put behind the attributes. -/
theorem fillMembers_children {v : Value} {nodes : List Node}
    (hRead : Tree.orNull children (.ofValue v) = .ok (some nodes)) (hNew : "children" ∉ given)
    (parts : Parts) (rest : List (Except Fault String × Tree)) :
    (record children room).fillMembers Tree.skip given parts (written ("children", v) :: rest) =
      (record children room).fillMembers Tree.skip ("children" :: given)
        { parts with children := some nodes } rest := by
  rw [written, Record.fillMembers_cons_of_not_mem rfl hNew]
  dsimp only [Json.Slot.optional]
  rw [hRead]
  rfl

/-- The sorted members of an element are read as its parts, with sorted attributes. -/
theorem exists_fillMembers_sorted (node : Node) (hAttrs : node.attrs.isEmpty = true ∨ 0 < room)
    (hRead : ∀ name attrs nodes, node = parent name attrs nodes →
      Tree.orNull children (.ofValue (.array (nodes.map fun child => child.toValue.sorted))) =
        .ok (some (nodes.map sorted))) :
    ∃ given, "name" ∈ given ∧
      (record children room).fillMembers Tree.skip [] (record children room).blank
          ((node.membersBefore ++ ("name", .string node.name) :: node.membersBehind).map written) =
        .ok (given, node.sorted.parts) := by
  rw [← node.attrs.isEmpty_sorted] at hAttrs
  -- no key is given twice: the first one, if any, is the one of the attributes
  have hNew : ∀ {key : String}, key ≠ "attrs" →
      key ∉ (attrsMember node.attrs.sorted).map Prod.fst :=
    fun hKey hMem => hKey (eq_attrs_of_mem_attrsMember hMem)
  have hName : "name" ∉ (attrsMember node.attrs.sorted).map Prod.fst := hNew (by decide)
  cases node <;> simp only [Node.attrs] at hAttrs hNew hName
  case empty name attrs =>
    refine ⟨"name" :: (attrsMember attrs.sorted).map Prod.fst, List.mem_cons_self .., ?_⟩
    rw [membersBefore, List.map_append, List.map_cons, fillMembers_attrsMember hAttrs,
      fillMembers_name _ hName]
    rfl
  case text name attrs value =>
    have hVal : "val" ∉ "name" :: (attrsMember attrs.sorted).map Prod.fst :=
      List.not_mem_cons_of_ne_of_not_mem (by decide) (hNew (by decide))
    refine ⟨"val" :: "name" :: (attrsMember attrs.sorted).map Prod.fst,
      List.mem_cons_of_mem _ (List.mem_cons_self ..), ?_⟩
    rw [membersBefore, membersBehind, List.map_append, List.map_cons, List.map_singleton,
      fillMembers_attrsMember hAttrs, fillMembers_name _ hName, fillMembers_val _ hVal]
    rfl
  case parent name attrs nodes =>
    have hName' : "name" ∉ "children" :: (attrsMember attrs.sorted).map Prod.fst :=
      List.not_mem_cons_of_ne_of_not_mem (by decide) hName
    refine ⟨"name" :: "children" :: (attrsMember attrs.sorted).map Prod.fst,
      List.mem_cons_self .., ?_⟩
    rw [membersBefore, List.map_append, List.map_append, List.map_singleton, List.append_assoc,
      fillMembers_attrsMember hAttrs, List.singleton_append, List.map_cons,
      fillMembers_children (hRead name attrs nodes rfl) (hNew (by decide)),
      fillMembers_name _ hName', sorted_parent]
    rfl

end Members

/-- Children are read with sorted attributes when each of them is. -/
theorem orNull_list_sorted {nodes : List Node} {room : Nat}
    (h : ∀ node ∈ nodes, ∀ room, node.toValue.depth ≤ room →
      read room (.ofValue node.toValue.sorted) = .ok node.sorted)
    (hDepth : (Value.array (nodes.map toValue)).depth ≤ room) :
    Tree.orNull (Tree.list read room)
      (.ofValue (.array (nodes.map fun node => node.toValue.sorted))) =
        .ok (some (nodes.map sorted)) := by
  cases room with
  | zero => exact absurd hDepth (Value.not_depth_array_le_zero _)
  | succ room =>
    have hItems : (nodes.map fun node => Tree.ofValue node.toValue.sorted).mapM (read room) =
        .ok (nodes.map sorted) := by
      rw [List.mapM_map]
      refine mapM_eq_ok_map fun node hNode => ?_
      exact h node hNode room (Value.depth_array_le_iff.1 hDepth _ (List.mem_map_of_mem hNode))
    have hList : Tree.list read (room + 1)
        (.array (nodes.map fun node => Tree.ofValue node.toValue.sorted) .closed) =
          .ok (nodes.map sorted) := by
      rw [Tree.list, Tree.listOf, hItems]
      rfl
    rw [Tree.ofValue_array, List.map_map]
    exact congrArg (some <$> ·) hList

/-- An element is read with sorted attributes when its children are. -/
theorem read_sorted_of_children (node : Node)
    (h : ∀ child ∈ node.children, ∀ room, child.toValue.depth ≤ room →
      read room (.ofValue child.toValue.sorted) = .ok child.sorted)
    {room : Nat} (hDepth : node.toValue.depth ≤ room) :
    read room (.ofValue node.toValue.sorted) = .ok node.sorted := by
  cases room with
  | zero =>
    rw [toValue_eq_object] at hDepth
    exact absurd hDepth (Value.not_depth_object_le_zero _)
  | succ room =>
    obtain ⟨hAttrs, hContent⟩ := depth_toValue_le_succ_iff.1 hDepth
    obtain ⟨given, hName, hFill⟩ := exists_fillMembers_sorted node hAttrs <| by
      rintro name attrs nodes rfl
      exact orNull_list_sorted h (hContent _ (List.mem_singleton_self _))
    rw [sorted_toValue]
    exact read_of_fillMembers hName hFill

/-- What is read of an element that is written with sorted members is the element with sorted
attributes, if it does not nest too deeply. -/
theorem read_sorted_toValue (node : Node) (room : Nat) (h : node.toValue.depth ≤ room) :
    read room (.ofValue node.toValue.sorted) = .ok node.sorted := by
  -- the room is less for the children than for the element
  induction node using inductionOn generalizing room with
  | empty name attrs =>
    exact read_sorted_of_children (empty name attrs) (fun _ h => absurd h List.not_mem_nil) h
  | text name attrs value =>
    exact read_sorted_of_children (text name attrs value) (fun _ h => absurd h List.not_mem_nil) h
  | parent name attrs children ih =>
    exact read_sorted_of_children (parent name attrs children) ih h

/-! ## What sorting keeps -/

/-- The second element is the first with the attributes of every element in the order of their keys:
the names, the texts, what elements hold and the order of what is inside are the same. -/
inductive SortedAs : Node → Node → Prop
  | empty (name : String) {attrs sorted : Attributes} (h : attrs.SortedAs sorted) :
      SortedAs (.empty name attrs) (.empty name sorted)
  | text (name : String) {attrs sorted : Attributes} (h : attrs.SortedAs sorted) (value : String) :
      SortedAs (.text name attrs value) (.text name sorted value)
  | parent (name : String) {attrs sorted : Attributes} (h : attrs.SortedAs sorted)
      {children sortedChildren : List Node}
      (inside : List.Forall₂ SortedAs children sortedChildren) :
      SortedAs (.parent name attrs children) (.parent name sorted sortedChildren)

/-- A tree is sorted by sorting the attributes of every element. -/
theorem sortedAs_sorted (node : Node) : node.SortedAs node.sorted := by
  induction node using inductionOn with
  | empty name attrs => exact .empty name attrs.sortedAs_sorted
  | text name attrs value => exact .text name attrs.sortedAs_sorted value
  | parent name attrs children ih =>
    rw [sorted_parent]
    have hInside := List.forall₂_map_right_iff.2 (List.forall₂_same.2 ih)
    exact .parent name attrs.sortedAs_sorted hInside

theorem name_sorted (node : Node) : node.sorted.name = node.name := by
  cases node <;> rfl

theorem attrs_sorted (node : Node) : node.sorted.attrs = node.attrs.sorted := by
  cases node <;> rfl

theorem children_sorted (node : Node) : node.sorted.children = node.children.map sorted := by
  cases node with
  | empty | text => rfl
  | parent name attrs children =>
    rw [sorted_parent]
    rfl

/-- Sorting attributes changes neither which elements there are nor their order. -/
theorem elements_sorted (node : Node) : node.sorted.elements = node.elements.map sorted := by
  induction node using inductionOn with
  | empty name attrs => rw [sorted, elements_empty, elements_empty, List.map_singleton, sorted]
  | text name attrs value => rw [sorted, elements_text, elements_text, List.map_singleton, sorted]
  | parent name attrs children ih =>
    rw [sorted_parent, elements_parent, elements_parent, List.map_cons, sorted_parent,
      List.flatMap_map, List.map_flatMap]
    exact congrArg (_ :: ·) (List.flatMap_congr ih)

/-- A child is found by its name before and after sorting. -/
theorem child?_sorted (node : Node) (name : String) :
    node.sorted.child? name = (node.child? name).map sorted := by
  rw [child?, child?, children_sorted, List.find?_map]
  congr 2
  funext child
  rw [Function.comp_apply, name_sorted]

/-- An element is found by its path before and after sorting. -/
theorem descend?_sorted (node : Node) (path : List String) :
    node.sorted.descend? path = (node.descend? path).map sorted := by
  induction path generalizing node with
  | nil => rfl
  | cons name path ih =>
    rw [descend?, descend?, child?_sorted]
    cases node.child? name with
    | none => rfl
    | some child => exact ih child

/-- Looking up in the second element comes to the same as in the first, up to the order of
attributes in what is found. -/
structure AnswersAs (node other : Node) : Prop where
  get : ∀ key, other.attrs.get? key = node.attrs.get? key
  child : ∀ name, Option.Rel SortedAs (node.child? name) (other.child? name)
  descend : ∀ path, Option.Rel SortedAs (node.descend? path) (other.descend? path)

/-- What is found is found sorted, and otherwise nothing is found in both. -/
theorem rel_map_sorted (found : Option Node) : Option.Rel SortedAs found (found.map sorted) := by
  cases found with
  | none => exact .none
  | some node => exact .some node.sortedAs_sorted

theorem answersAs_sorted (node : Node) : node.AnswersAs node.sorted where
  get key := by
    rw [attrs_sorted]
    exact Attributes.get?_of_perm node.attrs.sortedAs_sorted.perm key
  child name := by
    rw [child?_sorted]
    exact rel_map_sorted _
  descend path := by
    rw [descend?_sorted]
    exact rel_map_sorted _

/-! ## Texts -/

/-- Two texts that differ at most in the order of the attributes inside tags. -/
inductive TagsReordered : String → String → Prop
  | same (text : String) : TagsReordered text text
  | tag (name : String) {attrs other : Attributes} (h : other.entries.Perm attrs.entries) :
      TagsReordered (tagStart name attrs) (tagStart name other)
  | append {a a' b b' : String} (first : TagsReordered a a') (later : TagsReordered b b') :
      TagsReordered (a ++ b) (a' ++ b')

/-- The same text may follow. -/
theorem TagsReordered.before {a a' : String} (h : TagsReordered a a') (text : String) :
    TagsReordered (a ++ text) (a' ++ text) :=
  .append h (.same text)

theorem tagsReordered_indent (depth : Nat) (name : String) (attrs : Attributes) :
    TagsReordered (indent depth ++ tagStart name attrs)
      (indent depth ++ tagStart name attrs.sorted) :=
  .append (.same _) (.tag name attrs.sortedAs_sorted.perm)

/-- Elements whose texts differ in the order of attributes are rendered to such texts. -/
theorem tagsReordered_renderAll {nodes : List Node} {depth : Nat}
    (h : ∀ node ∈ nodes, TagsReordered (node.renderAt depth) (node.sorted.renderAt depth)) :
    TagsReordered (renderAll depth nodes) (renderAll depth (nodes.map sorted)) := by
  induction nodes with
  | nil => exact .same _
  | cons node nodes ih =>
    obtain ⟨hFirst, hRest⟩ := List.forall_mem_cons.1 h
    rw [List.map_cons, renderAll, renderAll]
    exact .append hFirst (ih hRest)

/-- A sorted tree is rendered to a text that differs in the order of attributes alone. -/
theorem tagsReordered_renderAt (node : Node) (depth : Nat) :
    TagsReordered (node.renderAt depth) (node.sorted.renderAt depth) := by
  induction node using inductionOn generalizing depth with
  | empty name attrs =>
    rw [sorted, renderAt, renderAt]
    exact (tagsReordered_indent depth name attrs).before _
  | text name attrs value =>
    rw [sorted, renderAt, renderAt]
    have hTag := tagsReordered_indent depth name attrs
    exact ((((hTag.before _).before _).before _).before _).before _
  | parent name attrs children ih =>
    have hInside := tagsReordered_renderAll fun child hChild => ih child hChild (depth + 1)
    rw [sorted_parent, renderAt, renderAt]
    have hTag := tagsReordered_indent depth name attrs
    exact (((((hTag.before _).append hInside).before _).before _).before _).before _

/-- Sorting reorders attributes inside tags and changes nothing else in the text of an element. -/
theorem tagsReordered_render (node : Node) : TagsReordered node.render node.sorted.render :=
  node.tagsReordered_renderAt 0

end Node

end FormDesign.Xml
